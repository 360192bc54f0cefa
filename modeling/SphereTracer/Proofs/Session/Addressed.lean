import SphereTracer.Proofs.Expr.Same
import SphereTracer.Proofs.Session.Canonical
import SphereTracer.Proofs.Shape.Compiled
import SphereTracer.Proofs.Shape.Library

/-!
# Addressed by content

The name of a node is that of its tree, in whatever session the node was made.  A shape that is
called makes the same trees in every session, and finds its nodes again where it has been called
before.
-/

namespace SphereTracer

open Relation (ReflTransGen)

/-- The handles lead to nodes that are called the same. -/
def Arena.SameName (arena arena' : Arena) (a b : Handle) : Prop :=
  ∃ node node', arena.node? a = some node ∧ arena'.node? b = some node' ∧
    node.hash = node'.hash ∧ node.name = node'.name

/-- Nodes that stand for one tree are called the same. -/
theorem Arena.Same.sameName {arena arena' : Arena} (hf : arena.Founded) (hf' : arena'.Founded)
    {a b : Handle} (h : arena.Same arena' a b) : arena.SameName arena' a b := by
  have hnamed {arena : Arena} (hf : arena.Founded) {a : Handle} {t : Tree}
      (ht : Denotes arena.nodes a t) : ∃ node, arena.node? a = some node ∧ node.hash = t.hash := by
    refine ⟨_, Array.getElem?_eq_getElem ht.index_lt, ?_⟩
    rw [← hf.hashOf_eq ht, hashOf, Array.getElem?_eq_getElem ht.index_lt]
  obtain ⟨t, ha, hb⟩ := h
  obtain ⟨node, hnode, hhash⟩ := hnamed hf ha
  obtain ⟨node', hnode', hhash'⟩ := hnamed hf' hb
  have heq : node.hash = node'.hash := hhash.trans hhash'.symm
  exact ⟨node, node', hnode, hnode', heq, by rw [Node.name, Node.name, heq]⟩

namespace Shape

variable {shape : Shape Word} {arena arena' : Arena} {p p' : Handle}

theorem buildAt_same (hshape : shape.Closed) (hw : arena.WellFormed) (hw' : arena'.WellFormed)
    (hp : arena.Same arena' p p')
    (hsize : ((shape.buildAt p).run arena).2.size ≤ UInt32.size)
    (hsize' : ((shape.buildAt p').run arena').2.size ≤ UInt32.size) :
    ((shape.buildAt p).run arena).2.Same ((shape.buildAt p').run arena').2
      ((shape.buildAt p).run arena).1 ((shape.buildAt p').run arena').1 := by
  obtain ⟨t, ht, ht'⟩ := hp
  obtain ⟨-, hroot⟩ := buildAt_denotes hshape hw ht hsize
  obtain ⟨-, hroot'⟩ := buildAt_denotes hshape hw' ht' hsize'
  -- Both roots stand for the tree that the shape makes at the tree of the position.
  exact ⟨_, hroot, hroot'⟩

theorem buildAt_repeatable (hshape : shape.Closed) (p : Handle) : (shape.buildAt p).Repeatable := by
  have hpt : Known [(p, default)] p default := List.mem_cons_self
  exact (assemble_related .repeatable hshape hpt hpt).1

end Shape

namespace Session

/-- Nodes are addressed by content, and calls of shapes are transparent.

Handles of two sessions that stand for one tree are called the same.  A shape that captures no node,
called in two sessions at positions that stand for one tree, gives handles that do so in turn, as
long as every node has a handle of its own.  And called again in one session at the same position,
after whatever else, it gives the handle that it gave and adds nothing. -/
theorem buildAt_transparent :
    (∀ {s s' : Session}, Reached s → Reached s' → ∀ {a b : Handle}, s.arena.Same s'.arena a b →
      s.arena.SameName s'.arena a b) ∧
    ∀ {shape : Shape Word}, shape.Closed →
      (∀ {s s' : Session}, Reached s → Reached s' → ∀ {p p' : Handle}, s.arena.Same s'.arena p p' →
        let built := (shape.buildAt p).run s.arena
        let built' := (shape.buildAt p').run s'.arena
        built.2.size ≤ UInt32.size → built'.2.size ≤ UInt32.size →
        built.2.Same built'.2 built.1 built'.1 ∧ built.2.SameName built'.2 built.1 built'.1) ∧
      ∀ {s later : Session} {p : Handle}, ReflTransGen Step (s.after (shape.buildAt p)) later →
        (shape.buildAt p).run later.arena = (((shape.buildAt p).run s.arena).1, later.arena) := by
  refine ⟨fun hs hs' _ _ h => h.sameName hs.sound.founded hs'.sound.founded,
    fun {shape} hshape => ?_⟩
  constructor
  · intro s s' hs hs' p p' hp built built' hsize hsize'
    have hle : s.arena.size ≤ built.2.size := ((shape.buildAt p).grows s.arena).length_le
    have hle' : s'.arena.size ≤ built'.2.size := ((shape.buildAt p').grows s'.arena).length_le
    have hw := hs.wellFormed (Nat.le_trans hle hsize)
    have hw' := hs'.wellFormed (Nat.le_trans hle' hsize')
    have hsame := Shape.buildAt_same hshape hw hw' hp hsize hsize'
    obtain ⟨t, ht, ht'⟩ := hp
    obtain ⟨hwb, -⟩ := Shape.buildAt_denotes hshape hw ht hsize
    obtain ⟨hwb', -⟩ := Shape.buildAt_denotes hshape hw' ht' hsize'
    exact ⟨hsame, hsame.sameName hwb.founded hwb'.founded⟩
  · intro s later p hlater
    exact (Shape.buildAt_repeatable hshape p).again (kept_of_steps hlater).interned

/-! Cells of quarter tori, called in two sessions. -/

theorem var_denotes {s : Session} (hs : Reached s) (v : Var)
    (hsize : (s.after (Build.var v)).arena.size ≤ UInt32.size) :
    Denotes (s.after (Build.var v)).arena.nodes ((Build.var v : Build Handle).run s.arena).1
      (.node (.var v)) := by
  have hle : s.arena.size ≤ (s.after (Build.var v)).arena.size :=
    ((Build.var v : Build Handle).grows s.arena).length_le
  have hfollows : Build.Follows (Known []) (Build.var v) (Build.var v) id := Simulation.inRoom.var v
  exact (hfollows s.arena (hs.wellFormed (Nat.le_trans hle hsize)) known_nil (.inl hsize)).2.1

/-- A session that has asked for the number one. -/
def counted : Session := start.after (Call.splat 1.0).perform

/-- The number one, and then the position. -/
def elsewhere : Session := counted.after (Call.var .position).perform

def elsewherePosition : Handle := ((Build.var .position : Build Handle).run counted.arena).1

theorem buildAt_transparent_truchet :
    let built := (Shape.truchet.buildAt position).run measured.arena
    let built' := (Shape.truchet.buildAt elsewherePosition).run elsewhere.arena
    let called := measured.after (Shape.truchet.buildAt position)
    Reached measured ∧ Reached elsewhere ∧ Shape.truchet.Closed ∧
      measured.arena.Same elsewhere.arena position elsewherePosition ∧
      measured.arena.SameName elsewhere.arena position elsewherePosition ∧
      built.2.size ≤ UInt32.size ∧ built'.2.size ≤ UInt32.size ∧
      built.2.Same built'.2 built.1 built'.1 ∧ built.2.SameName built'.2 built.1 built'.1 ∧
      (Shape.truchet.buildAt position).run called.arena = (built.1, called.arena) := by
  intro built built' called
  have hcounted : Reached counted := .single (.call _ (by simp [Call.operands]))
  have helsewhere : Reached elsewhere := hcounted.tail (.call _ (by simp [Call.operands]))
  have hmade : (Shape.truchet.assemble (.outer (.node (.var .position))) :
      Transcript Tree).made.length ≤ 1000 := by decide +kernel
  have hhandles : UInt32.size = 4294967296 := rfl
  have hmeasured := size_measured_le
  have hone : counted.arena.size ≤ 5 := (Call.splat 1.0).size_perform_le ∅
  have htwo : elsewhere.arena.size ≤ counted.arena.size + 5 :=
    (Call.var .position).size_perform_le counted.arena
  have hposition : Denotes measured.arena.nodes position (.node (.var .position)) :=
    (var_denotes .refl .position (Nat.le_trans size_pointed_le (by omega))).mono
      (kept_of_steps pointed_steps_measured).nodes
  have hposition' : Denotes elsewhere.arena.nodes elsewherePosition (.node (.var .position)) :=
    var_denotes hcounted .position (Nat.le_trans htwo (by omega))
  have hsame : measured.arena.Same elsewhere.arena position elsewherePosition :=
    ⟨_, hposition, hposition'⟩
  have hsize : built.2.size ≤ UInt32.size := Nat.le_trans
    (Shape.size_buildAt_le Shape.truchet_closed position (.node (.var .position)) _) (by omega)
  have hsize' : built'.2.size ≤ UInt32.size := Nat.le_trans
    (Shape.size_buildAt_le Shape.truchet_closed elsewherePosition (.node (.var .position)) _)
    (by omega)
  obtain ⟨hnamed, hshape⟩ := buildAt_transparent
  obtain ⟨hcalls, hagain⟩ := hshape Shape.truchet_closed
  obtain ⟨hbuilt, hbuiltName⟩ := hcalls measured_reached helsewhere hsame hsize hsize'
  have hrepeat := @hagain measured called position .refl
  exact ⟨measured_reached, helsewhere, Shape.truchet_closed, hsame,
    hnamed measured_reached helsewhere hsame, hsize, hsize', hbuilt, hbuiltName, hrepeat⟩

end Session

end SphereTracer
