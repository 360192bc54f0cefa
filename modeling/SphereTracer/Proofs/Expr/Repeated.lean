import SphereTracer.Proofs.Expr.Founded

/-!
# Repeated constructions

An operation that has been interned keeps its handle.  So a construction that is carried out again,
whatever has been built in between, finds all of its nodes: it gives what it gave before and leaves
the arena as it is.
-/

namespace SphereTracer

namespace Arena

/-- Every operation that the one arena knows has the same handle in the other. -/
def Within (arena arena' : Arena) : Prop :=
  ∀ (op : GraphOp) (h : Handle), arena.interned[op]? = some h → arena'.interned[op]? = some h

variable {arena arena' arena'' : Arena}

theorem Within.refl (arena : Arena) : arena.Within arena := fun _ _ h => h

theorem Within.trans (h : arena.Within arena') (h' : arena'.Within arena'') :
    arena.Within arena'' :=
  fun op a ha => h' op a (h op a ha)

theorem within_intern (op : GraphOp) (arena : Arena) : arena.Within (intern op arena).2 := by
  intro op' h hop'
  cases hop : arena.interned[op]? with
  | some a =>
    rw [intern_of_mem hop]
    exact hop'
  | none =>
    have hne : op ≠ op' := by
      rintro rfl
      cases hop.symm.trans hop'
    rw [intern_of_new hop]
    change (arena.interned.insert op arena.nextHandle)[op']? = some h
    rw [Std.HashMap.getElem?_insert, if_neg (by simpa using hne)]
    exact hop'

theorem interned_intern (op : GraphOp) (arena : Arena) :
    (intern op arena).2.interned[op]? = some (intern op arena).1 := by
  cases hop : arena.interned[op]? with
  | some a =>
    rw [intern_of_mem hop]
    exact hop
  | none =>
    rw [intern_of_new hop]
    exact Std.HashMap.getElem?_insert_self

end Arena

/-- A construction that, carried out again, gives the same and adds nothing. -/
structure Build.Repeatable {α : Type} (m : Build α) : Prop where
  within : ∀ arena : Arena, arena.Within (m.run arena).2
  again : ∀ {arena later : Arena}, (m.run arena).2.Within later →
    m.run later = ((m.run arena).1, later)

namespace Build.Repeatable

variable {α β : Type}

theorem pure (a : α) : (Pure.pure a : Build α).Repeatable where
  within arena := .refl arena
  again _ := rfl

theorem bind {m : Build α} {f : α → Build β} (hm : m.Repeatable)
    (hf : ∀ arena, (f (m.run arena).1).Repeatable) : (m >>= f).Repeatable where
  within arena := (hm.within arena).trans ((hf arena).within _)
  again {arena later} hlater := by
    have hfirst := hm.again (((hf arena).within _).trans hlater)
    change (f (m.run later).1).run (m.run later).2 = _
    rw [hfirst]
    exact (hf arena).again hlater

theorem op (o : GraphOp) : (Build.op o : Build Handle).Repeatable where
  within arena := Arena.within_intern o arena
  again {arena _} hlater := Arena.intern_of_mem (hlater o _ (Arena.interned_intern o arena))

end Build.Repeatable

/-- Constructions can be repeated, whatever their handles lead to. -/
def Simulation.repeatable : Simulation :=
  .plain (fun m _ => m.Repeatable) (fun a _ => .pure a) .bind (fun o _ => .op o)

end SphereTracer
