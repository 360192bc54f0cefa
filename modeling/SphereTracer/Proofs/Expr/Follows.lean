import SphereTracer.Proofs.Expr.Simulation
import SphereTracer.Proofs.Expr.WellFormed

/-!
# Constructions that find room

In a well-formed arena a construction gives a handle for the tree of its transcript, and what it
adds to the arena is what the transcript lists, as long as there is a handle for every node.
-/

namespace SphereTracer

/-- There is a handle for every node: the arena stays small enough, or so few trees are held and
made that it has to. -/
def Build.Room {α β : Type} (m : Build α) (m' : Transcript β) (arena : Arena) : Prop :=
  (m.run arena).2.size ≤ UInt32.size ∨
    ∃ trees : List Tree, trees.length ≤ UInt32.size ∧ ∀ t, arena.Holds t ∨ t ∈ m'.made → t ∈ trees

/-- The arena grows by what the transcript lists, and the results are related: in every well-formed
arena that agrees with what is known, and in which the construction finds room for its nodes. -/
def Build.Follows {α β : Type} (known : Reading) (m : Build α) (m' : Transcript β)
    (R : Reading → α → β → Prop) : Prop :=
  ∀ arena : Arena, arena.WellFormed → (∀ h t, known h t → Denotes arena.nodes h t) →
    m.Room m' arena →
    (m.run arena).2.WellFormed ∧ R (Denotes (m.run arena).2.nodes) (m.run arena).1 m'.result ∧
      ∀ t, (m.run arena).2.Holds t ↔ arena.Holds t ∨ t ∈ m'.made

namespace Build.Follows

variable {α β γ δ : Type} {known known' : Reading} {R : Reading → α → β → Prop}
  {Q : Reading → γ → δ → Prop} {m : Build α} {m' : Transcript β} {f : α → Build γ}
  {f' : β → Transcript δ}

theorem weaken (hsub : ∀ h t, known h t → known' h t) (hm : Follows known m m' R) :
    Follows known' m m' R := by
  intro arena hw hknown hroom
  exact hm arena hw (fun h t ht => hknown h t (hsub h t ht)) hroom

theorem pure {a : α} {b : β}
    (hR : ∀ reading : Reading, (∀ h t, known h t → reading h t) → R reading a b) :
    Follows known (Pure.pure a) (Pure.pure b) R := by
  intro arena hw hknown _
  refine ⟨hw, hR _ hknown, fun t => ?_⟩
  change arena.Holds t ↔ arena.Holds t ∨ t ∈ []
  simp

/-- The second construction may rely on all that is known after the first. -/
theorem bind (hm : Follows known m m' R)
    (hf : ∀ a (reading : Reading), (∀ h t, known h t → reading h t) → R reading a m'.result →
      Follows reading (f a) (f' m'.result) Q) :
    Follows known (m >>= f) (m' >>= f') Q := by
  intro arena hw hknown hroom
  have hgrows := m.grows arena
  have hmade (t : Tree) : t ∈ (m' >>= f').made ↔ t ∈ m'.made ∨ t ∈ (f' m'.result).made := by
    rw [Transcript.made_bind, List.mem_append]
  -- The arena only grows and the trees only add up, so room for both is room for either.
  have hroom₁ : m.Room m' arena := by
    rcases hroom with hall | ⟨trees, hlength, htrees⟩
    · exact .inl (Nat.le_trans ((f (m.run arena).1).grows (m.run arena).2).length_le hall)
    · refine .inr ⟨trees, hlength, fun t ht => htrees t ?_⟩
      rw [hmade]
      exact ht.imp_right .inl
  obtain ⟨hw₁, hR, hholds₁⟩ := hm arena hw hknown hroom₁
  have hstill : ∀ h t, known h t → Denotes (m.run arena).2.nodes h t :=
    fun h t ht => (hknown h t ht).mono hgrows
  have hroom₂ : (f (m.run arena).1).Room (f' m'.result) (m.run arena).2 := by
    rcases hroom with hall | ⟨trees, hlength, htrees⟩
    · exact .inl hall
    · refine .inr ⟨trees, hlength, fun t ht => htrees t ?_⟩
      rw [hmade, ← or_assoc, ← hholds₁]
      exact ht
  obtain ⟨hw₂, hQ, hholds₂⟩ := hf _ _ hstill hR _ hw₁ (fun _ _ ht => ht) hroom₂
  refine ⟨hw₂, hQ, fun t => ?_⟩
  rw [hmade, ← or_assoc, ← hholds₁]
  exact hholds₂ t

/-- An operation over known operands. -/
theorem op (o : Op Word (Handle × Tree)) (ho : ∀ a ∈ o.operands, known a.1 a.2) :
    Follows known (Build.op (o.map Prod.fst)) (Build.op (o.map Prod.snd)) id := by
  intro arena hw hknown hroom
  have hoperands : ∀ a ∈ o.operands, Denotes arena.nodes a.1 a.2 :=
    fun a ha => hknown a.1 a.2 (ho a ha)
  have hfits : (Arena.intern (o.map Prod.fst) arena).2.size ≤ UInt32.size := by
    rcases hroom with hall | ⟨trees, hlength, htrees⟩
    · exact hall
    · refine Nat.le_trans (hw.size_intern_le_length o hoperands fun t ht => htrees t ?_) hlength
      exact ht.imp_right List.mem_singleton.2
  obtain ⟨hw', hdenotes, hholds⟩ := hw.intern o hoperands hfits
  refine ⟨hw', hdenotes, fun t => ?_⟩
  rw [Transcript.made_op, List.mem_singleton]
  exact hholds t

end Build.Follows

/-- Where there is room, handles stand for the trees of the transcript. -/
def Simulation.inRoom : Simulation where
  Rel := Build.Follows
  weaken := Build.Follows.weaken
  pure := Build.Follows.pure
  bind := Build.Follows.bind
  op := Build.Follows.op

end SphereTracer
