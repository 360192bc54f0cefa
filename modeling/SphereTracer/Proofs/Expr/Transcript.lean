import SphereTracer.Expr.Term
import SphereTracer.Proofs.Expr.Tree

/-!
# Constructions as transcripts

A construction can be carried out without an arena: it then gives a tree, and the list of all trees
that it makes on the way.
-/

namespace SphereTracer

/-- What a construction gives, and the trees that it makes. -/
structure Transcript (α : Type) where
  result : α
  made : List Tree

namespace Transcript

variable {α β : Type}

instance : Monad Transcript where
  pure a := ⟨a, []⟩
  bind m f := ⟨(f m.result).result, m.made ++ (f m.result).made⟩

instance : LawfulMonad Transcript := by
  apply LawfulMonad.mk' Transcript
  · intro α m
    change (⟨m.result, m.made ++ []⟩ : Transcript α) = m
    rw [List.append_nil]
  · intro α β a f
    rfl
  · intro α β γ m f g
    change (⟨_, (_ ++ _) ++ _⟩ : Transcript γ) = ⟨_, _ ++ (_ ++ _)⟩
    rw [List.append_assoc]
    rfl

instance : Builder Transcript Tree where
  op o := ⟨.node o, [.node o]⟩
  captured _ := default

@[simp] theorem result_pure (a : α) : (pure a : Transcript α).result = a := rfl

@[simp] theorem made_pure (a : α) : (pure a : Transcript α).made = [] := rfl

@[simp] theorem result_bind (m : Transcript α) (f : α → Transcript β) :
    (m >>= f).result = (f m.result).result := rfl

@[simp] theorem made_bind (m : Transcript α) (f : α → Transcript β) :
    (m >>= f).made = m.made ++ (f m.result).made := rfl

@[simp] theorem result_op (o : Op Word Tree) : (Build.op o : Transcript Tree).result = .node o := rfl

@[simp] theorem made_op (o : Op Word Tree) : (Build.op o : Transcript Tree).made = [.node o] := rfl

theorem result_mapM {ι : Type} (f : ι → Transcript α) (l : List ι) :
    (l.mapM f).result = l.map fun i => (f i).result := by
  induction l with
  | nil => rfl
  | cons i rest ih => rw [List.mapM_cons, result_bind, result_bind, ih, result_pure, List.map_cons]

theorem made_mapM {ι : Type} (f : ι → Transcript α) (l : List ι) :
    (l.mapM f).made = l.flatMap fun i => (f i).made := by
  induction l with
  | nil => rfl
  | cons i rest ih =>
    rw [List.mapM_cons, made_bind, made_bind, ih, made_pure, List.append_nil, List.flatMap_cons]

end Transcript

instance : LawfulMonad Build :=
  LawfulMonad.mk' Build (fun _ => rfl) (fun _ _ => rfl) (fun _ _ _ => rfl)

/-- A relation between handles and the trees that they stand for. -/
abbrev Reading := Handle → Tree → Prop

/-- What is known of the handles in a list. -/
def Known (pairs : List (Handle × Tree)) : Reading := fun h t => (h, t) ∈ pairs

@[simp] theorem known_cons {a : Handle × Tree} {pairs : List (Handle × Tree)} {h : Handle}
    {t : Tree} :
    Known (a :: pairs) h t ↔ (h = a.1 ∧ t = a.2) ∨ Known pairs h t := by
  simp [Known, Prod.ext_iff]

theorem known_nil {reading : Reading} : ∀ h t, Known [] h t → reading h t := by
  intro h t ht
  exact absurd ht List.not_mem_nil

theorem known_singleton {reading : Reading} {p : Handle} {s : Tree} (hp : reading p s) :
    ∀ h t, Known [(p, s)] h t → reading h t := by
  intro h t ht
  cases List.mem_singleton.1 ht
  exact hp

end SphereTracer
