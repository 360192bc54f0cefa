import SphereTracer.Proofs.Graph.PostOrder

/-!
# The moves of a walk

What one step of the iterative traversal does, without its limit on pending entries: it finishes a
node, drops an entry whose node is finished already, or opens a node and puts its operands on the
stack.  A walk that goes from root to root by such moves always ends, and `flatten` answers with the
order in which it ends, or with the first fault that it meets.
-/

namespace SphereTracer

namespace Walk

/-- The pending entries, the next one first. -/
def todo (walk : Walk) : List Pending := walk.stack.toList.reverse

/-- Entries for the operands that have not been visited yet. -/
def fresh (marks : Array Mark) (operands : List Handle) : List Pending :=
  (operands.filter fun b => marks[b.index]? = some .unvisited).map (⟨·, false⟩)

/-- The marks once a node has been opened. -/
def opened (marks : Array Mark) (h : Handle) : Array Mark := marks.setIfInBounds h.index .active

/-- One move of the walk, with no limit on the entries that it leaves pending. -/
inductive Move (nodes : Array Node) : Walk → Walk → Prop where
  | finish {marks : Array Mark} {order : Array Handle} {rest : Array Pending} {h : Handle}
      {node : Node} (hnode : nodes[h.index]? = some node) :
      Move nodes ⟨marks, order, rest.push ⟨h, true⟩⟩
        ⟨marks.setIfInBounds h.index .done, order.push h, rest⟩
  | drop {marks : Array Mark} {order : Array Handle} {rest : Array Pending} {h : Handle}
      {node : Node} (hnode : nodes[h.index]? = some node)
      (hmark : marks[h.index]? = some .done) :
      Move nodes ⟨marks, order, rest.push ⟨h, false⟩⟩ ⟨marks, order, rest⟩
  | expand {marks : Array Mark} {order : Array Handle} {rest : Array Pending} {h : Handle}
      {node : Node} (hnode : nodes[h.index]? = some node)
      (hmark : marks[h.index]? = some .unvisited)
      (hready : ∀ b ∈ node.op.operands, (opened marks h)[b.index]? = some .unvisited ∨
        (opened marks h)[b.index]? = some .done) :
      Move nodes ⟨marks, order, rest.push ⟨h, false⟩⟩
        ⟨opened marks h, order,
          rest.push ⟨h, true⟩ ++ (fresh (opened marks h) node.op.operands).reverse.toArray⟩

/-- Why the top entry of the stack cannot be acted on. -/
inductive Fault (nodes : Array Node) (walk : Walk) (top : Pending) : GraphError → Prop where
  | strayRoot (h : nodes[top.handle.index]? = none ∨ walk.marks[top.handle.index]? = none) :
      Fault nodes walk top (.unknownNode top.handle)
  | openRoot (htop : top.expanded = false) (h : walk.marks[top.handle.index]? = some .active) :
      Fault nodes walk top (.cycle top.handle)
  | strayOperand {b : Handle} (hb : Graph.Uses nodes top.handle b)
      (h : (opened walk.marks top.handle)[b.index]? = none) :
      Fault nodes walk top (.unknownNode b)
  | openOperand {b : Handle} (htop : top.expanded = false) (hb : Graph.Uses nodes top.handle b)
      (h : (opened walk.marks top.handle)[b.index]? = some .active) :
      Fault nodes walk top (.cycle b)
  | tooDeep {next : Walk} (hmove : Move nodes walk next) (h : maxTraversal < next.stack.size) :
      Fault nodes walk top (.depthExceeded maxTraversal)

/-! ## Pushing operands -/

theorem pushOperands_cons (marks : Array Mark) (a : Handle) (operands : List Handle)
    (stack : Array Pending) : pushOperands marks (a :: operands) stack =
      (pushOperands marks operands stack).bind fun s => pushOperand marks s a := by
  unfold pushOperands
  rw [List.reverse_cons, List.foldlM_append]
  simp only [List.foldlM_cons, List.foldlM_nil, bind_pure]
  rfl

theorem pushOperands_eq_ok_iff {marks : Array Mark} {operands : List Handle}
    {stack stack' : Array Pending} : pushOperands marks operands stack = .ok stack' ↔
      (∀ b ∈ operands, marks[b.index]? = some .unvisited ∨ marks[b.index]? = some .done) ∧
        stack' = stack ++ (fresh marks operands).reverse.toArray := by
  induction operands generalizing stack' with
  | nil => simp [pushOperands, fresh, pure, Except.pure, eq_comm]
  | cons a operands ih =>
    rw [pushOperands_cons]
    cases hrest : pushOperands marks operands stack with
    | error e =>
      have hnot : ¬ ∀ b ∈ operands, marks[b.index]? = some .unvisited ∨
          marks[b.index]? = some .done := by
        intro hall
        have hok := ih.2 ⟨hall, rfl⟩
        rw [hrest] at hok
        cases hok
      simp only [Except.bind, reduceCtorEq, List.forall_mem_cons, false_iff]
      exact fun h => hnot h.1.2
    | ok middle =>
      obtain ⟨hall, rfl⟩ := ih.1 hrest
      simp only [Except.bind, pushOperand, List.forall_mem_cons, iff_true_intro hall, and_true]
      rcases hmark : marks[a.index]? with _ | _ | _ | _
      · simp
      · simp [fresh, hmark, eq_comm]
      · simp
      · simp [fresh, hmark, eq_comm]

theorem pushOperands_error {marks : Array Mark} {operands : List Handle} {stack : Array Pending}
    {e : GraphError} (h : pushOperands marks operands stack = .error e) :
    ∃ b ∈ operands, (marks[b.index]? = none ∧ e = .unknownNode b) ∨
      (marks[b.index]? = some .active ∧ e = .cycle b) := by
  induction operands with
  | nil => cases h
  | cons a operands ih =>
    rw [pushOperands_cons] at h
    -- The later operands are pushed first, so a fault of theirs comes before one of `a`.
    cases hrest : pushOperands marks operands stack with
    | error e' =>
      rw [hrest] at h
      cases h
      obtain ⟨b, hb, hfault⟩ := ih hrest
      exact ⟨b, List.mem_cons_of_mem _ hb, hfault⟩
    | ok middle =>
      rw [hrest] at h
      refine ⟨a, List.mem_cons_self, ?_⟩
      simp only [Except.bind, pushOperand] at h
      rcases hmark : marks[a.index]? with _ | _ | _ | _ <;> rw [hmark] at h <;> cases h
      · exact .inl ⟨rfl, rfl⟩
      · exact .inr ⟨rfl, rfl⟩

/-! ## Steps and moves -/

section
variable {nodes : Array Node}

/-- A step that succeeds is a move, and it stays within the limit or takes entries away. -/
theorem step_ok {walk next : Walk} {top : Pending} (htop : walk.stack.back? = some top)
    (hstep : walk.step nodes top = .ok next) : Move nodes walk next ∧
      (next.stack.size ≤ maxTraversal ∨ next.stack.size < walk.stack.size) := by
  obtain ⟨marks, order, stack⟩ := walk
  obtain ⟨rest, rfl⟩ := Array.back?_eq_some_iff.1 htop
  obtain ⟨h, expanded⟩ := top
  simp only [step, Array.pop_push] at hstep
  split at hstep
  · cases hstep
  rename_i node hnode
  cases expanded with
  | true =>
    simp only [if_true] at hstep
    cases hstep
    exact ⟨.finish hnode, .inr (by simp)⟩
  | false =>
    simp only [Bool.false_eq_true, if_false] at hstep
    split at hstep
    · cases hstep
    · rename_i hmark
      cases hstep
      exact ⟨.drop hnode hmark, .inr (by simp)⟩
    · cases hstep
    · rename_i hmark
      split at hstep
      · cases hstep
      rename_i stack' hpush
      obtain ⟨hready, rfl⟩ := pushOperands_eq_ok_iff.1 hpush
      split at hstep
      · cases hstep
      · rename_i hsize
        cases hstep
        exact ⟨.expand hnode hmark hready, .inl (Nat.le_of_not_lt hsize)⟩

theorem step_error {walk : Walk} {top : Pending} {e : GraphError}
    (htop : walk.stack.back? = some top) (hstep : walk.step nodes top = .error e) :
    Fault nodes walk top e := by
  obtain ⟨marks, order, stack⟩ := walk
  obtain ⟨rest, rfl⟩ := Array.back?_eq_some_iff.1 htop
  obtain ⟨h, expanded⟩ := top
  simp only [step, Array.pop_push] at hstep
  split at hstep
  · rename_i hnode
    cases hstep
    exact .strayRoot (.inl hnode)
  rename_i node hnode
  cases expanded with
  | true => cases hstep
  | false =>
    simp only [Bool.false_eq_true, if_false] at hstep
    split at hstep
    · rename_i hmark
      cases hstep
      exact .strayRoot (.inr hmark)
    · cases hstep
    · rename_i hmark
      cases hstep
      exact .openRoot rfl hmark
    · rename_i hmark
      split at hstep
      · rename_i e' hpush
        cases hstep
        obtain ⟨b, hb, ⟨hnone, rfl⟩ | ⟨hactive, rfl⟩⟩ := pushOperands_error hpush
        · exact .strayOperand ((Graph.uses_iff hnode).2 hb) hnone
        · exact .openOperand rfl ((Graph.uses_iff hnode).2 hb) hactive
      rename_i stack' hpush
      obtain ⟨hready, rfl⟩ := pushOperands_eq_ok_iff.1 hpush
      split at hstep
      · rename_i hsize
        cases hstep
        exact .tooDeep (.expand hnode hmark hready) hsize
      · cases hstep

/-- A move is what the step does, unless it leaves too many entries pending. -/
theorem step_of_move {walk next : Walk} (hmove : Move nodes walk next)
    (hsize : walk.stack.size ≤ maxTraversal) : ∃ top, walk.stack.back? = some top ∧
      ((next.stack.size ≤ maxTraversal ∧ walk.step nodes top = .ok next) ∨
        (maxTraversal < next.stack.size ∧
          walk.step nodes top = .error (.depthExceeded maxTraversal))) := by
  cases hmove with
  | @finish marks order rest h node hnode =>
    refine ⟨_, Array.back?_push, .inl ⟨?_, ?_⟩⟩
    · simp only [Array.size_push] at hsize
      exact Nat.le_of_succ_le hsize
    · simp [step, hnode]
  | @drop marks order rest h node hnode hmark =>
    refine ⟨_, Array.back?_push, .inl ⟨?_, ?_⟩⟩
    · simp only [Array.size_push] at hsize
      exact Nat.le_of_succ_le hsize
    · simp [step, hnode, hmark]
  | @expand marks order rest h node hnode hmark hready =>
    refine ⟨_, Array.back?_push, ?_⟩
    have hpush := pushOperands_eq_ok_iff.2
      ⟨hready, Eq.refl (rest.push ⟨h, true⟩ ++
        (fresh (opened marks h) node.op.operands).reverse.toArray)⟩
    have hstep : step nodes ⟨marks, order, rest.push ⟨h, false⟩⟩ ⟨h, false⟩ =
        if (rest.push ⟨h, true⟩ ++
            (fresh (opened marks h) node.op.operands).reverse.toArray).size > maxTraversal then
          .error (.depthExceeded maxTraversal)
        else .ok ⟨opened marks h, order, rest.push ⟨h, true⟩ ++
          (fresh (opened marks h) node.op.operands).reverse.toArray⟩ := by
      simp only [step, hnode, hmark, Array.pop_push, Bool.false_eq_true, if_false]
      rw [show marks.setIfInBounds h.index .active = opened marks h from rfl, hpush]
    rw [hstep]
    by_cases hdeep : maxTraversal < (rest.push ⟨h, true⟩ ++
        (fresh (opened marks h) node.op.operands).reverse.toArray).size
    · exact .inr ⟨hdeep, if_pos hdeep⟩
    · exact .inl ⟨Nat.le_of_not_lt hdeep, if_neg hdeep⟩

theorem run_of_empty {walk : Walk} (h : walk.stack.back? = none) : run nodes walk = .ok walk := by
  rw [run]
  split
  · rfl
  · rename_i htop
    cases h.symm.trans htop

theorem run_of_ok {walk next : Walk} {top : Pending} (htop : walk.stack.back? = some top)
    (hstep : walk.step nodes top = .ok next) : run nodes walk = run nodes next := by
  rw [run]
  split
  · rename_i h
    cases h.symm.trans htop
  · rename_i top' htop'
    cases htop'.symm.trans htop
    split
    · rename_i hstep'
      cases hstep'.symm.trans hstep
    · rename_i hstep'
      cases hstep'.symm.trans hstep
      rfl

theorem run_of_error {walk : Walk} {top : Pending} {e : GraphError}
    (htop : walk.stack.back? = some top) (hstep : walk.step nodes top = .error e) :
    run nodes walk = .error e := by
  rw [run]
  split
  · rename_i h
    cases h.symm.trans htop
  · rename_i top' htop'
    cases htop'.symm.trans htop
    split
    · rename_i hstep'
      cases hstep'.symm.trans hstep
      rfl
    · rename_i hstep'
      cases hstep'.symm.trans hstep

/-! ## Walks over several roots -/

/-- One move of a walk together with the roots that are still to come: a move of the walk, or the
next root once nothing is pending. -/
inductive Advance (nodes : Array Node) : List Handle × Walk → List Handle × Walk → Prop where
  | move {roots : List Handle} {walk next : Walk} (h : Move nodes walk next) :
      Advance nodes (roots, walk) (roots, next)
  | root {r : Handle} {roots : List Handle} {marks : Array Mark} {order : Array Handle} :
      Advance nodes (r :: roots, ⟨marks, order, #[]⟩) (roots, ⟨marks, order, #[⟨r, false⟩]⟩)

/-- The walk over the roots comes by the state, if no limit stops it before. -/
def Reaches (nodes : Array Node) (roots : List Handle) (state : List Handle × Walk) : Prop :=
  Relation.ReflTransGen (Advance nodes) (roots, .start nodes.size) state

/-- The walk over the roots really has more entries pending, at some time, than the limit. -/
def Exceeds (nodes : Array Node) (roots : List Handle) : Prop :=
  ∃ state, Reaches nodes roots state ∧ maxTraversal < state.2.stack.size

/-- Each move leaves fewer nodes unvisited, or as many and a shorter stack. -/
theorem Move.decreases {walk next : Walk} (h : Move nodes walk next) :
    Prod.Lex (· < ·) (· < ·) (next.unvisited, next.stack.size)
      (walk.unvisited, walk.stack.size) := by
  cases h with
  | @finish marks order rest h node hnode =>
    have hle := countP_set_le marks h.index (m := .done) (by decide)
    rcases Nat.lt_or_eq_of_le hle with hlt | heq
    · exact .left _ _ hlt
    · simp only [unvisited, heq]
      exact .right _ (by simp)
  | drop hnode hmark => exact .right _ (by simp)
  | expand hnode hmark hready => exact .left _ _ (countP_set_lt hmark (by decide))

/-- No walk goes on for ever, whatever the nodes and the roots. -/
theorem advance_wellFounded (nodes : Array Node) :
    WellFounded fun next state => Advance nodes state next := by
  -- Lexicographic: the roots to come, the unvisited nodes, the entries on the stack.
  let measure (state : List Handle × Walk) : Nat × Nat × Nat :=
    (state.1.length, state.2.unvisited, state.2.stack.size)
  have hlex : WellFounded (Prod.Lex (· < ·) (Prod.Lex (· < ·) (· < ·)) :
      Nat × Nat × Nat → Nat × Nat × Nat → Prop) :=
    (Prod.lex Nat.lt_wfRel (Prod.lex Nat.lt_wfRel Nat.lt_wfRel)).wf
  refine Subrelation.wf ?_ (InvImage.wf measure hlex)
  intro next state h
  cases h with
  | move hmove => exact .right _ hmove.decreases
  | root => exact .left _ _ (by simp)

theorem length_fresh_le (marks : Array Mark) (op : GraphOp) :
    (fresh marks op.operands).length ≤ 4 := by
  have hoperands : op.operands.length ≤ 4 := by
    cases op <;> simp [Op.operands]
  unfold fresh
  rw [List.length_map]
  exact Nat.le_trans (List.length_filter_le _ _) hoperands

/-- What is left to be done from a state on. -/
def resume (nodes : Array Node) (state : List Handle × Walk) : Except GraphError Walk :=
  (run nodes state.2).bind fun walk => state.1.foldlM (visit nodes) walk

theorem resume_start (roots : List Handle) : resume nodes (roots, .start nodes.size) =
    roots.foldlM (visit nodes) (.start nodes.size) := by
  have hrun : run nodes (.start nodes.size) = .ok (.start nodes.size) := run_of_empty rfl
  unfold resume
  rw [hrun]
  rfl

theorem flatten_eq_resume (roots : List Handle) :
    flatten nodes roots = (resume nodes (roots, .start nodes.size)).map (·.order) := by
  rw [resume_start]
  unfold flatten
  cases roots.foldlM (visit nodes) (start nodes.size) <;> rfl

theorem resume_root {r : Handle} {roots : List Handle} {marks : Array Mark}
    {order : Array Handle} : resume nodes (r :: roots, ⟨marks, order, #[]⟩) =
      resume nodes (roots, ⟨marks, order, #[⟨r, false⟩]⟩) := by
  unfold resume
  rw [run_of_empty rfl]
  simp only [Except.bind, List.foldlM_cons, visit]
  rfl

/-- How a walk ends: with an order, and then no root and no entry is left, or at a fault. -/
inductive Ends (nodes : Array Node) (state : List Handle × Walk) :
    Except GraphError Walk → Prop where
  | order {walk : Walk} (hpath : Relation.ReflTransGen (Advance nodes) state ([], walk))
      (hempty : walk.stack = #[]) : Ends nodes state (.ok walk)
  | fault {last : List Handle × Walk} {top : Pending} {e : GraphError}
      (hpath : Relation.ReflTransGen (Advance nodes) state last)
      (htop : last.2.stack.back? = some top) (hfault : Fault nodes last.2 top e) :
      Ends nodes state (.error e)

theorem Ends.before {state next : List Handle × Walk} {result : Except GraphError Walk}
    (hadvance : Advance nodes state next) (h : Ends nodes next result) :
    Ends nodes state result := by
  cases h with
  | order hpath hempty => exact .order (.head hadvance hpath) hempty
  | fault hpath htop hfault => exact .fault (.head hadvance hpath) htop hfault

theorem resume_ends (state : List Handle × Walk) : Ends nodes state (resume nodes state) := by
  induction state using (advance_wellFounded nodes).induction with
    -- By well-founded induction: either the walk stops here, or what follows the next state does.
  | h state ih =>
    obtain ⟨roots, walk⟩ := state
    cases htop : walk.stack.back? with
    | none =>
      have hempty : walk.stack = #[] := by simpa using htop
      cases roots with
      | nil =>
        have hend : resume nodes ([], walk) = .ok walk := by
          unfold resume
          rw [run_of_empty htop]
          rfl
        rw [hend]
        exact .order .refl hempty
      | cons r roots =>
        obtain ⟨marks, order, stack⟩ := walk
        obtain rfl : stack = #[] := hempty
        rw [resume_root]
        exact (ih _ .root).before .root
    | some top =>
      cases hstep : walk.step nodes top with
      | error e =>
        have hend : resume nodes (roots, walk) = .error e := by
          unfold resume
          rw [run_of_error htop hstep]
          rfl
        rw [hend]
        exact .fault .refl htop (step_error htop hstep)
      | ok next =>
        have hnext : resume nodes (roots, walk) = resume nodes (roots, next) := by
          unfold resume
          rw [run_of_ok htop hstep]
        rw [hnext]
        exact (ih _ (.move (step_ok htop hstep).1)).before (.move (step_ok htop hstep).1)

/-- An error is that of a fault on the way. -/
theorem ends_of_flatten_error {roots : List Handle} {e : GraphError}
    (h : flatten nodes roots = .error e) : Ends nodes (roots, .start nodes.size) (.error e) := by
  have hends := @resume_ends nodes (roots, start nodes.size)
  rw [flatten_eq_resume] at h
  cases hresume : resume nodes (roots, start nodes.size) with
  | ok walk =>
    rw [hresume] at h
    cases h
  | error e' =>
    rw [hresume] at h hends
    cases h
    exact hends

/-- As long as the limit is kept, `flatten` goes on from every state that the walk comes by. -/
theorem flatten_follows {roots : List Handle} {state : List Handle × Walk}
    (h : Reaches nodes roots state) :
    flatten nodes roots = .error (.depthExceeded maxTraversal) ∨
      (state.2.stack.size ≤ maxTraversal ∧
        flatten nodes roots = (resume nodes state).map (·.order)) := by
  induction h with
  | refl => exact .inr ⟨Nat.zero_le _, flatten_eq_resume roots⟩
  | tail _ hadvance ih =>
    rcases ih with hdeep | ⟨hsize, heq⟩
    · exact .inl hdeep
    cases hadvance with
    | root => exact .inr ⟨Nat.le_of_ble_eq_true rfl, heq.trans (congrArg _ resume_root)⟩
    | move hmove =>
      obtain ⟨top, htop, ⟨hkept, hstep⟩ | ⟨_, hstep⟩⟩ := step_of_move hmove hsize
      · refine .inr ⟨hkept, heq.trans ?_⟩
        unfold resume
        rw [run_of_ok htop hstep]
      · left
        rw [heq]
        unfold resume
        rw [run_of_error htop hstep]
        rfl

theorem flatten_depthExceeded_iff {roots : List Handle} {limit : Nat} :
    flatten nodes roots = .error (.depthExceeded limit) ↔
      limit = maxTraversal ∧ Exceeds nodes roots := by
  constructor
  · intro h
    cases ends_of_flatten_error h with
    | fault hpath _ hfault =>
      cases hfault with
      | tooDeep hmove hsize => exact ⟨rfl, _, hpath.tail (.move hmove), hsize⟩
  · rintro ⟨rfl, state, hreach, hsize⟩
    rcases flatten_follows hreach with hdeep | ⟨hkept, _⟩
    · exact hdeep
    · omega

end

end Walk

end SphereTracer
