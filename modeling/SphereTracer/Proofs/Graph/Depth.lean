import Mathlib.Data.List.Chain
import Mathlib.Data.List.Perm.Subperm
import SphereTracer.Proofs.Graph.Flattened

/-!
# The depth of a walk

The entries that a walk leaves pending are those of one dependency path: every node of the path has its
expanded entry on the stack, and above that entry there are at most the operands of the node.  So the
limit on pending entries is one on the length of such paths, and not on the size of a graph or on how
much of it is shared.
-/

namespace SphereTracer

namespace Graph

/-- A way down from a root, from user to operand, on which no node comes twice. -/
structure DependencyPath (nodes : Array Node) (roots path : List Handle) : Prop where
  root : ∀ h ∈ path.head?, h ∈ roots
  uses : path.IsChain (Uses nodes)
  valid : ∀ h ∈ path, h.index < nodes.size
  nodup : path.Nodup

theorem DependencyPath.length_le {nodes : Array Node} {roots path : List Handle}
    (h : DependencyPath nodes roots path) : path.length ≤ nodes.size := by
  have hnodup : (path.map (·.index)).Nodup := h.nodup.map fun _ _ => Handle.index_inj
  have hsub : path.map (·.index) ⊆ List.range nodes.size := fun i hi => by
    obtain ⟨a, ha, rfl⟩ := List.mem_map.1 hi
    exact List.mem_range.2 (h.valid a ha)
  have hlength := (hnodup.subperm hsub).length_le
  rwa [List.length_map, List.length_range] at hlength

end Graph

namespace Walk

open SphereTracer.Graph

variable {nodes : Array Node} {roots : List Handle}

/-- The open nodes among some entries. -/
def openAmong (entries : List Pending) : List Handle := (entries.filter (·.expanded)).map (·.handle)

/-- The nodes whose operands are being walked, from the root down. -/
def path (walk : Walk) : List Handle := openAmong walk.stack.toList

theorem openAmong_reverse (entries : List Pending) :
    openAmong entries.reverse = (openAmong entries).reverse := by
  rw [openAmong, openAmong, List.filter_reverse, List.map_reverse]

theorem openAmong_todo (walk : Walk) : openAmong walk.todo = walk.path.reverse :=
  openAmong_reverse _

/-! ## Trails -/

/-- Pending entries, the next one first, and the path of open nodes among them, the innermost first.
An open node stands where its own entry was, below at most four entries for its operands. -/
inductive Trail (nodes : Array Node) (roots : List Handle) : List Pending → List Handle → Prop where
  | base {entries : List Pending} (hlength : entries.length ≤ 1)
      (hentries : ∀ e ∈ entries, e.expanded = false ∧ e.handle ∈ roots) :
      Trail nodes roots entries []
  | level {h : Handle} {path : List Handle} {below entries : List Pending}
      (hbelow : Trail nodes roots (⟨h, false⟩ :: below) path) (hlength : entries.length ≤ 4)
      (hentries : ∀ e ∈ entries, e.expanded = false ∧ Uses nodes h e.handle) :
      Trail nodes roots (entries ++ ⟨h, true⟩ :: below) (h :: path)

namespace Trail

variable {h : Handle} {todo rest : List Pending} {path : List Handle}

/-- Each node of the path accounts for four entries. -/
theorem length_le (ht : Trail nodes roots todo path) : todo.length ≤ 4 * path.length + 1 := by
  induction ht with
  | base hlength _ => exact hlength
  | level _ hlength _ ih =>
    simp only [List.length_cons, List.length_append] at ih ⊢
    omega

theorem openAmong_eq (ht : Trail nodes roots todo path) : openAmong todo = path := by
  have hnone {entries : List Pending} (h : ∀ e ∈ entries, e.expanded = false) :
      entries.filter (·.expanded) = [] :=
    List.filter_eq_nil_iff.2 fun e he => by simp [h e he]
  -- The entries above an open node are not expanded, so each level shows its own node only.
  induction ht with
  | base _ hentries =>
    rw [openAmong, hnone fun e he => (hentries e he).1]
    rfl
  | level _ _ hentries ih =>
    rw [← ih, openAmong, List.filter_append, hnone fun e he => (hentries e he).1]
    rfl

theorem drop (ht : Trail nodes roots (⟨h, false⟩ :: rest) path) : Trail nodes roots rest path := by
  generalize htodo : (⟨h, false⟩ :: rest : List Pending) = todo at ht
  cases ht with
  | base hlength hentries =>
    subst htodo
    exact .base (Nat.le_of_succ_le hlength) fun e he => hentries e (List.mem_cons_of_mem _ he)
  | @level h' path below entries hbelow hlength hentries =>
    cases entries with
    | nil => cases htodo
    | cons e entries =>
      obtain ⟨-, rfl⟩ := List.cons.inj htodo
      exact .level hbelow (Nat.le_of_succ_le hlength) fun e he =>
        hentries e (List.mem_cons_of_mem _ he)

/-- The open node that comes up is the innermost of the path. -/
theorem finish (ht : Trail nodes roots (⟨h, true⟩ :: rest) path) :
    ∃ outer, path = h :: outer ∧ Trail nodes roots rest outer := by
  generalize htodo : (⟨h, true⟩ :: rest : List Pending) = todo at ht
  cases ht with
  | base _ hentries =>
    subst htodo
    cases (hentries _ List.mem_cons_self).1
  | @level h' path below entries hbelow _ hentries =>
    cases entries with
    | nil =>
      cases htodo
      exact ⟨path, rfl, hbelow.drop⟩
    | cons e entries =>
      obtain ⟨rfl, -⟩ := List.cons.inj htodo
      cases (hentries _ List.mem_cons_self).1

/-- The next entry is for an operand of the innermost open node, or for a root if none is open. -/
theorem next (ht : Trail nodes roots (⟨h, false⟩ :: rest) path) :
    (path = [] → h ∈ roots) ∧ ∀ user ∈ path.head?, Uses nodes user h := by
  generalize htodo : (⟨h, false⟩ :: rest : List Pending) = todo at ht
  cases ht with
  | base _ hentries =>
    subst htodo
    exact ⟨fun _ => (hentries _ List.mem_cons_self).2, by simp⟩
  | @level h' path below entries _ _ hentries =>
    cases entries with
    | nil => cases htodo
    | cons e entries =>
      obtain ⟨rfl, -⟩ := List.cons.inj htodo
      refine ⟨nofun, fun user huser => ?_⟩
      obtain rfl := Option.some.inj huser
      exact (hentries _ List.mem_cons_self).2

/-- From the root down, the path leads from user to operand. -/
theorem reverse_path (ht : Trail nodes roots todo path) :
    (∀ r ∈ path.reverse.head?, r ∈ roots) ∧ path.reverse.IsChain (Uses nodes) := by
  induction ht with
  | base => exact ⟨by simp, .nil⟩
  | @level h path below entries hbelow _ _ ih =>
    obtain ⟨hroot, huses⟩ := hbelow.next
    rw [List.reverse_cons]
    constructor
    · cases path with
      | nil => simpa using hroot rfl
      | cons b path =>
        have hsome : (b :: path).reverse ≠ [] := by simp
        rw [List.head?_append_of_ne_nil _ hsome]
        exact ih.1
    · refine List.isChain_append.2 ⟨ih.2, .singleton h, fun user huser operand hoperand => ?_⟩
      rw [List.getLast?_reverse] at huser
      obtain rfl := Option.some.inj hoperand
      exact huses user huser

end Trail

/-! ## Open nodes -/

/-- The path of the open nodes, the innermost first, against the stack and the marks. -/
structure Deep (nodes : Array Node) (roots : List Handle) (walk : Walk) (path : List Handle) :
    Prop where
  trail : Trail nodes roots walk.todo path
  nodup : path.Nodup
  active : ∀ h ∈ path, walk.marks[h.index]? = some .active

theorem Deep.move {walk next : Walk} {path : List Handle} (hdeep : Deep nodes roots walk path)
    (hmove : Move nodes walk next) : ∃ path, Deep nodes roots next path := by
  obtain ⟨htrail, hnodup, hactive⟩ := hdeep
  cases hmove with
  | @finish marks order rest h node hnode =>
    rw [todo_push] at htrail
    obtain ⟨outer, rfl, hrest⟩ := htrail.finish
    obtain ⟨hnot, houter⟩ := List.nodup_cons.1 hnodup
    refine ⟨outer, hrest, houter, fun b hb => ?_⟩
    have hne : h ≠ b := fun heq => hnot (heq ▸ hb)
    rw [getElem?_mark, if_neg hne]
    exact hactive b (List.mem_cons_of_mem _ hb)
  | drop hnode hmark =>
    rw [todo_push] at htrail
    exact ⟨path, htrail.drop, hnodup, hactive⟩
  | @expand marks order rest h node hnode hmark hready =>
    rw [todo_push] at htrail
    have hnot : h ∉ path := fun hmem => by
      have := hactive h hmem
      rw [hmark] at this
      cases this
    refine ⟨h :: path, ?_, List.nodup_cons.2 ⟨hnot, hnodup⟩, fun b hb => ?_⟩
    · rw [todo_expand marks]
      refine .level htrail (length_fresh_le _ _) fun e he => ?_
      obtain ⟨hoperand, -, hexpanded⟩ := mem_fresh.1 he
      exact ⟨hexpanded, (uses_iff hnode).2 hoperand⟩
    · rw [getElem?_opened]
      rcases List.mem_cons.1 hb with rfl | hb
      · rw [if_pos rfl, hmark]
        rfl
      · have hne : h ≠ b := fun heq => hnot (heq ▸ hb)
        rw [if_neg hne]
        exact hactive b hb

theorem Deep.of_reaches {state : List Handle × Walk} (h : Reaches nodes roots state) :
    ∃ path, Deep nodes roots state.2 path := by
  induction h with
  | refl => exact ⟨[], .base (Nat.zero_le 1) (by simp [todo, Walk.start]), .nil, by simp⟩
  | tail hbefore hadvance ih =>
    cases hadvance with
    | move hmove =>
      obtain ⟨path, hdeep⟩ := ih
      exact hdeep.move hmove
    | @root r rest marks order =>
      have hr : r ∈ roots := (Inv.of_reaches hbefore).pending_roots List.mem_cons_self
      exact ⟨[], .base (Nat.le_refl 1) (by simp [todo, hr]), .nil, by simp⟩

/-- Whenever the walk comes by a state, the open nodes are a path from a root, and all that is pending
belongs to it. -/
theorem path_of_reaches {state : List Handle × Walk} (h : Reaches nodes roots state) :
    DependencyPath nodes roots state.2.path ∧
      (∀ b, b ∈ state.2.path ↔ state.2.marks[b.index]? = some .active) ∧
      state.2.stack.size ≤ 4 * state.2.path.length + 1 := by
  have hinv := Inv.of_reaches h
  obtain ⟨path, htrail, hnodup, hactive⟩ := Deep.of_reaches h
  -- The trail lists the open nodes from the inside, the path from the root.
  obtain rfl : path = state.2.path.reverse := by
    rw [← openAmong_todo, htrail.openAmong_eq]
  obtain ⟨hroot, huses⟩ := htrail.reverse_path
  rw [List.reverse_reverse] at hroot huses
  simp only [List.mem_reverse] at hactive
  have hvalid (b : Handle) (hb : b ∈ state.2.path) : b.index < nodes.size :=
    hinv.marks_size ▸ (Array.getElem?_eq_some_iff.1 (hactive b hb)).1
  refine ⟨⟨hroot, huses, hvalid, List.nodup_reverse.1 hnodup⟩, fun b => ⟨hactive b, fun hb => ?_⟩, ?_⟩
  · rw [← List.mem_reverse, ← openAmong_todo]
    exact List.mem_map.2 ⟨_, List.mem_filter.2 ⟨hinv.active_mem b hb, rfl⟩, rfl⟩
  · have hlength := htrail.length_le
    rwa [todo, List.length_reverse, List.length_reverse, Array.length_toList] at hlength

theorem not_exceeds_of_paths
    (hpaths : ∀ path, DependencyPath nodes roots path → 4 * path.length + 1 ≤ maxTraversal) :
    ¬ Exceeds nodes roots := by
  rintro ⟨state, hreach, hdeep⟩
  obtain ⟨hpath, -, hsize⟩ := path_of_reaches hreach
  exact Nat.lt_irrefl _ (hdeep.trans_le (hsize.trans (hpaths _ hpath)))

theorem not_exceeds_of_size (roots : List Handle) (hsize : 4 * nodes.size + 1 ≤ maxTraversal) :
    ¬ Exceeds nodes roots :=
  not_exceeds_of_paths fun _ hpath => by
    have := hpath.length_le
    omega

end Walk

open SphereTracer.Graph

/-- At every time of a traversal, and so whenever its limit is checked, the open nodes are a
dependency path from a root, and no more entries are pending than one and four for each of its nodes.
Therefore a graph whose dependency paths have at most 262143 nodes is never too deep, however large it
is and however much of it is shared. -/
theorem pending_bounded_by_path (nodes : Array Node) (roots : List Handle) :
    (∀ state, Walk.Reaches nodes roots state →
      DependencyPath nodes roots state.2.path ∧
      (∀ h, h ∈ state.2.path ↔ state.2.marks[h.index]? = some .active) ∧
      state.2.stack.size ≤ 4 * state.2.path.length + 1) ∧
    ((∀ path, DependencyPath nodes roots path → path.length ≤ (maxTraversal - 1) / 4) →
      ∀ limit, flatten nodes roots ≠ .error (.depthExceeded limit)) := by
  refine ⟨fun state => Walk.path_of_reaches, fun hpaths limit hdeep => ?_⟩
  refine Walk.not_exceeds_of_paths (fun path hpath => ?_) (Walk.flatten_depthExceeded_iff.1 hdeep).2
  have hle := hpaths path hpath
  simp only [maxTraversal] at hle ⊢
  omega

/-- One node, and many others of which each reads it four times over. -/
def fan (size : ℕ) : Array Node :=
  #[⟨.var .position, 0⟩] ++ Array.replicate size ⟨.select ⟨0⟩ ⟨0⟩ ⟨0⟩ ⟨0⟩, 1⟩

theorem uses_fan {size : ℕ} {a b : Handle} (h : Uses (fan size) a b) : a ≠ ⟨0⟩ ∧ b = ⟨0⟩ := by
  obtain ⟨node, hnode, hb⟩ := h.exists_node
  rw [fan, Array.getElem?_append] at hnode
  split at hnode
  · next hlt =>
    have hzero : a.index = 0 := Nat.lt_one_iff.1 hlt
    rw [hzero] at hnode
    obtain rfl := Option.some.inj hnode
    cases hb
  · next hge =>
    have hmem := Array.mem_of_getElem? hnode
    obtain rfl := Array.eq_of_mem_replicate hmem
    refine ⟨?_, by simpa [Op.operands] using hb⟩
    rintro rfl
    exact hge Nat.zero_lt_one

/-- The limit allows no more than 262143 nodes on a path, but a million of them side by side. -/
theorem pending_bounded_by_path_fan :
    (∀ path, DependencyPath (fan 1000000) [⟨0⟩, ⟨7⟩, ⟨1000000⟩] path →
      path.length ≤ (maxTraversal - 1) / 4) ∧
    ∀ limit, flatten (fan 1000000) [⟨0⟩, ⟨7⟩, ⟨1000000⟩] ≠ .error (.depthExceeded limit) := by
  have hpaths (path : List Handle)
      (h : DependencyPath (fan 1000000) [⟨0⟩, ⟨7⟩, ⟨1000000⟩] path) :
      path.length ≤ (maxTraversal - 1) / 4 := by
    match path, h.uses with
    | [], _ | [_], _ | [_, _], _ => exact Nat.le_of_ble_eq_true rfl
    | a :: b :: c :: rest, .cons_cons hab (.cons_cons hbc _) =>
      exact absurd (uses_fan hab).2 (uses_fan hbc).1
  exact ⟨hpaths, (pending_bounded_by_path _ _).2 hpaths⟩

end SphereTracer
