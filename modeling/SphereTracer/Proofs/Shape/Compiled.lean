import SphereTracer.Proofs.Graph.Depth
import SphereTracer.Proofs.Expr.Evaluated
import SphereTracer.Proofs.Shape.Meaning

/-!
# Compiled shapes

A shape that is built in an arena, flattened and evaluated gives the value that it means, whatever
else the arena holds and whatever is shared.  The one thing that can get in the way is the limit on
the entries which a traversal may leave pending; then flattening says so.
-/

namespace SphereTracer

open Build

/-- The position, in an arena of its own. -/
theorem var_position_denotes :
    ((Build.var .position : Build Handle).run ∅).2.WellFormed ∧
      Denotes ((Build.var .position : Build Handle).run ∅).2.nodes
        ((Build.var .position : Build Handle).run ∅).1 (.node (.var .position)) ∧
      ((Build.var .position : Build Handle).run ∅).2.size ≤ 1 := by
  have hvar : Follows (Known []) (Build.var .position) (Build.var .position) id :=
    Simulation.inRoom.var .position
  have hcount : Simulation.counted.Rel (Known []) (Build.var .position) (Build.var .position) id :=
    Simulation.counted.var .position
  have hsize : ((Build.var .position : Build Handle).run ∅).2.size ≤ 1 := hcount.1 ∅
  obtain ⟨hw, hp, -⟩ :=
    hvar ∅ Arena.wellFormed_empty known_nil (.inl (Nat.le_trans hsize (by decide)))
  exact ⟨hw, hp, hsize⟩

namespace Shape

/-- A shape at the position, in an arena that holds nothing else. -/
def alone (shape : Shape Word) : Handle × Arena :=
  (do shape.buildAt (← Build.var .position) : Build Handle).run ∅

variable {shape : Shape Word} {arena : Arena} {p : Handle} {t : Tree}

theorem distanceAt_eq_map {S : Type} [Scalar S] (shape : Shape Word) (point : Vec3 S) :
    shape.distanceAt point =
      (flatten shape.alone.2.nodes [shape.alone.1]).map fun order =>
        ((Slots.run shape.alone.2.nodes order (.atPoint point) (.blank shape.alone.2.size)).get
          shape.alone.1).x := by
  change (flatten shape.alone.2.nodes [shape.alone.1] >>= fun order => _) = _
  cases flatten shape.alone.2.nodes [shape.alone.1] <;> rfl

theorem size_buildAt_le (hshape : shape.Closed) (p : Handle) (t : Tree) (arena : Arena) :
    ((shape.buildAt p).run arena).2.size ≤
      arena.size + (shape.assemble (.outer t) : Transcript Tree).made.length := by
  have hpt : Known [(p, t)] p t := List.mem_cons_self
  exact (assemble_related .counted hshape hpt hpt).1 arena

/-- A shape that is built where there is room gives a handle for the tree that it makes. -/
theorem buildAt_denotes (hshape : shape.Closed) (harena : arena.WellFormed)
    (hp : Denotes arena.nodes p t)
    (hsize : ((shape.buildAt p).run arena).2.size ≤ UInt32.size) :
    ((shape.buildAt p).run arena).2.WellFormed ∧
      Denotes ((shape.buildAt p).run arena).2.nodes ((shape.buildAt p).run arena).1
        (shape.assemble (.outer t) : Transcript Tree).result := by
  have hpt : Known [(p, t)] p t := List.mem_cons_self
  obtain ⟨hw, hroot, -⟩ :=
    assemble_follows hshape hpt hpt arena harena (known_singleton hp) (.inl hsize)
  exact ⟨hw, hroot⟩

/-- What a transcript of few operations builds stays clear of every limit. -/
theorem buildAt_within (hshape : shape.Closed) (harena : arena.WellFormed)
    (hp : Denotes arena.nodes p t)
    (hfew : arena.size + (shape.assemble (.outer t) : Transcript Tree).made.length ≤ 262143) :
    ((shape.buildAt p).run arena).2.WellFormed ∧
      ((shape.buildAt p).run arena).2.size ≤
        arena.size + (shape.assemble (.outer t) : Transcript Tree).made.length ∧
      ((shape.buildAt p).run arena).2.size ≤ UInt32.size ∧
      ¬ Walk.Exceeds ((shape.buildAt p).run arena).2.nodes [((shape.buildAt p).run arena).1] := by
  have hhandles : UInt32.size = 4294967296 := rfl
  have hroom : arena.size + (shape.assemble (.outer t) : Transcript Tree).made.length ≤
      UInt32.size := by
    omega
  have hsize := size_buildAt_le hshape p t arena
  obtain ⟨hw, -⟩ := buildAt_denotes hshape harena hp (Nat.le_trans hsize hroom)
  refine ⟨hw, hsize, Nat.le_trans hsize hroom, ?_⟩
  apply Walk.not_exceeds_of_size
  have hle : ((shape.buildAt p).run arena).2.nodes.size ≤ 262143 := Nat.le_trans hsize hfew
  unfold maxTraversal
  omega

theorem alone_within {shape : Shape Word} (hs : shape.Closed)
    (hfew : (shape.assemble (.outer (.node (.var .position))) : Transcript Tree).made.length <
      262143) :
    shape.alone.2.size ≤ UInt32.size ∧ ¬ Walk.Exceeds shape.alone.2.nodes [shape.alone.1] := by
  obtain ⟨hwp, hp, hone⟩ := var_position_denotes
  obtain ⟨-, -, hroom, hwithin⟩ := buildAt_within hs hwp hp (by omega)
  exact ⟨hroom, hwithin⟩

/-- Within the limits, a shape that is built anywhere has the distance that it means. -/
theorem exists_order_value {shape : Shape Word} (hshape : shape.Closed) {arena : Arena} {p : Handle}
    {t : Tree} (harena : arena.WellFormed) (hp : Denotes arena.nodes p t)
    (hsize : ((shape.buildAt p).run arena).2.size ≤ UInt32.size)
    (hwithin : ¬ Walk.Exceeds ((shape.buildAt p).run arena).2.nodes
      [((shape.buildAt p).run arena).1]) :
    ∃ order, flatten ((shape.buildAt p).run arena).2.nodes [((shape.buildAt p).run arena).1] =
        .ok order ∧
      ∀ (bindings : Bindings Float32) (slots : Slots Float32),
        slots.size = ((shape.buildAt p).run arena).2.size →
        (slots.run ((shape.buildAt p).run arena).2.nodes order bindings).get
          ((shape.buildAt p).run arena).1 =
            shape.value Scalar.ofWord bindings (.outer (t.eval bindings)) := by
  obtain ⟨hw, hroot⟩ := buildAt_denotes hshape harena hp hsize
  obtain ⟨order, horder, hrun⟩ := hroot.run_flatten hw hwithin
  refine ⟨order, horder, fun bindings slots hslots => ?_⟩
  rw [hrun bindings slots hslots]
  exact eval_assemble hshape bindings (.outer t)

/-- Through an arena of its own, the distance is that of the tree at the position. -/
theorem distanceAt_eq_eval {S : Type} [Scalar S] {shape : Shape Word} (hshape : shape.Closed)
    (hsize : shape.alone.2.size ≤ UInt32.size)
    (hwithin : ¬ Walk.Exceeds shape.alone.2.nodes [shape.alone.1]) (point : Vec3 S) :
    shape.distanceAt point = .ok ((shape.assemble (.outer (.node (.var .position))) :
      Transcript Tree).result.eval (.atPoint point)).x := by
  obtain ⟨hwp, hp, -⟩ := var_position_denotes
  obtain ⟨hw, hroot⟩ := buildAt_denotes hshape hwp hp hsize
  obtain ⟨order, horder, hrun⟩ := hroot.run_flatten hw hwithin
  have hget := hrun (.atPoint point) (.blank shape.alone.2.size) Array.size_replicate
  rw [distanceAt_eq_map]
  change Except.map _ (flatten shape.alone.2.nodes [shape.alone.1]) = _
  rw [show flatten shape.alone.2.nodes [shape.alone.1] = .ok order from horder]
  exact congrArg (fun v : Vec3 S => Except.ok v.x) hget

/-- A shape without captured nodes compiles to its meaning.  Built in any well-formed arena that has
handles for its nodes, at any point that the arena holds, it leaves what is there as it is; and its
root, flattened and evaluated in any table, has the value of the shape at the value of the point.
Only the limit on pending entries can prevent that, and then flattening reports it.  The same goes
for the distance of a point through an arena of the shape's own. -/
theorem compiled_value {shape : Shape Word} (hshape : shape.Closed) :
    (∀ {arena : Arena} {p : Handle} {t : Tree}, arena.WellFormed → Denotes arena.nodes p t →
      let built := (shape.buildAt p).run arena
      built.2.size ≤ UInt32.size →
      built.2.WellFormed ∧ arena.nodes.toList <+: built.2.nodes.toList ∧
        (Walk.Exceeds built.2.nodes [built.1] →
          flatten built.2.nodes [built.1] = .error (.depthExceeded maxTraversal)) ∧
        (¬ Walk.Exceeds built.2.nodes [built.1] →
          ∃ order, flatten built.2.nodes [built.1] = .ok order ∧
            ∀ (bindings : Bindings Float32) (slots : Slots Float32), slots.size = built.2.size →
              (Slots.run built.2.nodes order bindings slots).get built.1 =
                shape.value Scalar.ofWord bindings (.outer (t.eval bindings)))) ∧
    ∀ point : Vec3 Float32, shape.alone.2.size ≤ UInt32.size →
      (Walk.Exceeds shape.alone.2.nodes [shape.alone.1] →
        shape.distanceAt point = .error (.depthExceeded maxTraversal)) ∧
      (¬ Walk.Exceeds shape.alone.2.nodes [shape.alone.1] →
        shape.distanceAt point =
          .ok (shape.value Scalar.ofWord (.atPoint point) (.outer point)).x) := by
  constructor
  · intro arena p t harena hp built hsize
    obtain ⟨hw, -⟩ := buildAt_denotes hshape harena hp hsize
    refine ⟨hw, (shape.buildAt p).grows arena, fun hdeep => ?_, fun hwithin => ?_⟩
    · exact Walk.flatten_depthExceeded_iff.2 ⟨rfl, hdeep⟩
    · exact exists_order_value hshape harena hp hsize hwithin
  · intro point hsize
    refine ⟨fun hdeep => ?_, fun hwithin => ?_⟩
    · rw [distanceAt_eq_map, Walk.flatten_depthExceeded_iff.2 ⟨rfl, hdeep⟩]
      rfl
    · rw [distanceAt_eq_eval hshape hsize hwithin, eval_assemble hshape]
      rfl

/-- A ball that moves, beside a larger one. -/
def movingBall : Shape Word :=
  .union (.translate (.var .time) (.sphere 1.0)) (.scale 2.0 (.sphere 1.0))

theorem compiled_value_movingBall :
    let base := (Build.var .position : Build Handle).run ∅
    let other := ((cuboid 1.0).buildAt base.1).run base.2
    let built := (movingBall.buildAt base.1).run other.2
    (∃ order, flatten built.2.nodes [built.1] = .ok order ∧
      ∀ (bindings : Bindings Float32) (slots : Slots Float32), slots.size = built.2.size →
        (Slots.run built.2.nodes order bindings slots).get built.1 =
          movingBall.value Scalar.ofWord bindings
            (.outer ((Tree.node (.var .position)).eval bindings))) ∧
    ∀ point : Vec3 Float32, movingBall.distanceAt point =
      .ok (movingBall.value Scalar.ofWord (.atPoint point) (.outer point)).x := by
  have hclosed : movingBall.Closed := ⟨⟨trivial, trivial⟩, trivial, trivial⟩
  have hcuboid : (cuboid 1.0 : Shape Word).Closed := trivial
  have hlength : (movingBall.assemble (.outer (.node (.var .position))) :
      Transcript Tree).made.length = 13 := rfl
  have hlength' : ((cuboid 1.0).assemble (.outer (.node (.var .position))) :
      Transcript Tree).made.length = 13 := rfl
  obtain ⟨hwp, hp, hone⟩ := var_position_denotes
  obtain ⟨hw, hsize, -, -⟩ := buildAt_within hcuboid hwp hp (by omega)
  have hp' := hp.mono (((cuboid 1.0).buildAt ((Build.var .position : Build Handle).run ∅).1).grows _)
  obtain ⟨-, -, hroom, hwithin⟩ := buildAt_within hclosed hw hp' (by omega)
  obtain ⟨-, -, hroom', hwithin'⟩ := buildAt_within hclosed hwp hp (by omega)
  constructor
  · exact ((compiled_value hclosed).1 hw hp' hroom).2.2.2 hwithin
  · intro point
    exact ((compiled_value hclosed).2 point hroom').2 hwithin'

end Shape

/-! ## Too deep to be flattened -/

/-- A tower of choices between equals, on top of the number one. -/
def choiceTower {M : Type → Type} {α : Type} [Monad M] [Builder M α] : Nat → M α
  | 0 => Build.splat 1.0
  | n + 1 => do
    let h ← choiceTower n
    Build.select h h h h

theorem choiceTower_related (sim : Simulation) (n : Nat) :
    sim.Rel (Known []) (choiceTower n) (choiceTower n) id := by
  induction n with
  | zero => exact sim.splat 1.0
  | succ n ih =>
    refine sim.andThen ih fun h => ?_
    exact sim.select (by simp) (by simp) (by simp) (by simp)

theorem length_choiceTower (n : Nat) : (choiceTower n : Transcript Tree).made.length = n + 1 := by
  induction n with
  | zero => rfl
  | succ n ih =>
    change ((choiceTower n : Transcript Tree).made ++ [_]).length = _
    rw [List.length_append, ih]
    rfl

/-- The first operand of a node stands for the first operand of its tree. -/
theorem Denotes.first_operand {nodes : Array Node} {h : Handle} {o : Op Word Tree} {t : Tree}
    {ts : List Tree} (hh : Denotes nodes h (.node o)) (ho : o.operands = t :: ts) :
    ∃ node a others, nodes[h.index]? = some node ∧ node.op.operands = a :: others ∧
      others.length = ts.length ∧ Denotes nodes a t := by
  cases hh with
  | @node _ node op hnode hop hoperands =>
    rw [Op.operands_map] at ho
    obtain ⟨q, qs, hq, rfl, rfl⟩ := List.map_eq_cons_iff.1 ho
    refine ⟨node, q.1, qs.map Prod.fst, hnode, ?_, ?_, ?_⟩
    · rw [hop, Op.operands_map, hq, List.map_cons]
    · rw [List.length_map, List.length_map]
    · exact hoperands q (hq ▸ List.mem_cons_self)

namespace Walk

variable {arena : Arena} {h : Handle} {marks : Array Mark}

/-- Nothing has been visited up to the handle. -/
def Untouched (marks : Array Mark) (h : Handle) : Prop :=
  ∀ b : Handle, b.index ≤ h.index → marks[b.index]? = some .unvisited

/-- A walk that comes to a node for the first time goes on to the first operand, and leaves the node
and the other operands pending. -/
theorem enter (hw : arena.WellFormed) (order : Array Handle) (rest : Array Pending)
    {o : Op Word Tree} {t : Tree} {ts : List Tree} (hh : Denotes arena.nodes h (.node o))
    (ho : o.operands = t :: ts) (huntouched : Untouched marks h) :
    ∃ (a : Handle) (marks' : Array Mark) (rest' : Array Pending),
      Move arena.nodes ⟨marks, order, rest.push ⟨h, false⟩⟩
        ⟨marks', order, rest'.push ⟨a, false⟩⟩ ∧
      Denotes arena.nodes a t ∧ Untouched marks' a ∧ rest'.size = rest.size + 1 + ts.length := by
  obtain ⟨node, a, others, hnode, hoperands, hlength, ha⟩ := hh.first_operand ho
  have hbelow {b : Handle} (hb : b.index < h.index) :
      (opened marks h)[b.index]? = some .unvisited := by
    have hne : h ≠ b := by
      rintro rfl
      exact Nat.lt_irrefl _ hb
    rw [getElem?_opened, if_neg hne]
    exact huntouched b (Nat.le_of_lt hb)
  have hready : ∀ b ∈ node.op.operands, (opened marks h)[b.index]? = some .unvisited :=
    fun b hb => hbelow (hw.operands_lt hnode b hb)
  have hfresh : fresh (opened marks h) node.op.operands =
      (node.op.operands.map fun b => ⟨b, false⟩) := by
    unfold fresh
    rw [List.filter_eq_self.2 fun b hb => decide_eq_true (hready b hb)]
  have hmove := @Move.expand _ marks order rest h node hnode (huntouched h (Nat.le_refl _))
    fun b hb => .inl (hready b hb)
  rw [hfresh, hoperands, List.map_cons, List.reverse_cons, ← List.append_toArray,
    ← Array.append_assoc, ← Array.push_eq_append] at hmove
  refine ⟨a, _, _, hmove, ha, fun b hb => hbelow ?_, ?_⟩
  · have hlt := hw.operands_lt hnode a (hoperands ▸ List.mem_cons_self)
    omega
  · simp only [Array.size_append, Array.size_push, List.size_toArray, List.length_reverse,
      List.length_map, hlength]

/-- Down a tower, four more entries are pending at each level. -/
theorem descend (hw : arena.WellFormed) (roots : List Handle) (order : Array Handle)
    (rest : Array Pending) (n : Nat)
    (hh : Denotes arena.nodes h (choiceTower n : Transcript Tree).result)
    (huntouched : Untouched marks h) :
    ∃ walk, Relation.ReflTransGen (Advance arena.nodes)
        (roots, ⟨marks, order, rest.push ⟨h, false⟩⟩) (roots, walk) ∧
      walk.stack.size = rest.size + 1 + 4 * n := by
  -- By induction on the height of the tower; marks and pending entries change with each level.
  induction n generalizing h marks rest with
  | zero => exact ⟨_, .refl, Array.size_push _⟩
  | succ n ih =>
    obtain ⟨a, marks', rest', hmove, ha, huntouched', hsize⟩ :=
      enter hw order rest hh rfl huntouched
    obtain ⟨walk, hpath, hsize'⟩ := ih rest' ha huntouched'
    refine ⟨walk, .head (.move hmove) hpath, ?_⟩
    rw [hsize', hsize]
    simp only [List.length_cons, List.length_nil]
    omega

theorem untouched_start {nodes : Array Node} (hlt : h.index < nodes.size) :
    Untouched (start nodes.size).marks h := by
  intro b hb
  simp only [start]
  rw [Array.getElem?_replicate, if_pos (by omega)]

end Walk

namespace Shape

/-- At the top of a high tower, a ball is out of reach. -/
theorem flatten_tower (n : Nat) (hhigh : maxTraversal ≤ 4 * n) (hlow : n ≤ 262144) :
    ((choiceTower n : Build Handle).run ∅).2.WellFormed ∧
      Denotes ((choiceTower n : Build Handle).run ∅).2.nodes ((choiceTower n : Build Handle).run ∅).1
        (choiceTower n : Transcript Tree).result ∧
      (((sphere 1.0).buildAt ((choiceTower n : Build Handle).run ∅).1).run
        ((choiceTower n : Build Handle).run ∅).2).2.size ≤ UInt32.size ∧
      flatten (((sphere 1.0).buildAt ((choiceTower n : Build Handle).run ∅).1).run
          ((choiceTower n : Build Handle).run ∅).2).2.nodes
        [(((sphere 1.0).buildAt ((choiceTower n : Build Handle).run ∅).1).run
          ((choiceTower n : Build Handle).run ∅).2).1] = .error (.depthExceeded maxTraversal) := by
  have hlength := length_choiceTower n
  have hhandles : UInt32.size = 4294967296 := rfl
  have hempty : (∅ : Arena).size = 0 := rfl
  have hsize := (choiceTower_related .counted n).1 ∅
  obtain ⟨hw, hp, -⟩ :=
    choiceTower_related .inRoom n ∅ Arena.wellFormed_empty known_nil (.inl (by omega))
  generalize (choiceTower n : Build Handle).run ∅ = base at hw hp hsize
  have hclosed : (sphere 1.0 : Shape Word).Closed := trivial
  have hmade : ((sphere 1.0).assemble (.outer (choiceTower n : Transcript Tree).result) :
      Transcript Tree).made.length = 3 := rfl
  have hsizeb := size_buildAt_le hclosed base.1 (choiceTower n : Transcript Tree).result base.2
  obtain ⟨hwb, hroot⟩ := buildAt_denotes hclosed hw hp (by omega)
  refine ⟨hw, hp, Nat.le_trans hsizeb (by omega), ?_⟩
  apply Walk.flatten_depthExceeded_iff.2
  refine ⟨rfl, ?_⟩
  obtain ⟨l, marks, rest, hmove, hl, huntouched, hrest⟩ :=
    Walk.enter hwb #[] #[] hroot rfl (Walk.untouched_start hroot.index_lt)
  obtain ⟨a, marks', rest', hmove', ha, huntouched', hrest'⟩ :=
    Walk.enter hwb #[] rest hl rfl huntouched
  obtain ⟨walk, hpath, hwalk⟩ := Walk.descend hwb [] #[] rest' n ha huntouched'
  refine ⟨_, .head .root (.head (.move hmove) (.head (.move hmove') hpath)), ?_⟩
  simp only
  omega

/-- A ball of radius one at a point that is well formed, and yet too deep: there is no order of its
nodes, and so no value. -/
theorem compiled_value_tooDeep :
    let base := (choiceTower 262144 : Build Handle).run ∅
    let built := ((sphere 1.0).buildAt base.1).run base.2
    (sphere 1.0 : Shape Word).Closed ∧ base.2.WellFormed ∧ base.1.index < base.2.nodes.size ∧
      built.2.size ≤ UInt32.size ∧
      flatten built.2.nodes [built.1] = .error (.depthExceeded maxTraversal) ∧
      ¬ ∃ order, flatten built.2.nodes [built.1] = .ok order := by
  obtain ⟨hw, hp, hsize, hdeep⟩ := flatten_tower 262144 (Nat.le_refl _) (by omega)
  refine ⟨trivial, hw, hp.index_lt, hsize, hdeep, ?_⟩
  rintro ⟨order, horder⟩
  cases hdeep.symm.trans horder

end Shape

end SphereTracer
