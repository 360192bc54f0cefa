import Mathlib.Data.List.Forall2
import SphereTracer.Proofs.Expr.Transcript

/-!
# Simulations

Ways to relate a construction in an arena to a transcript that are kept when constructions are put
together: they need to be known for a single operation only.  Terms, shapes and scenes are then
built as their transcripts say, in the sense of every simulation, by one induction for all of them.
-/

namespace SphereTracer

/-- A relation between constructions and transcripts, given what is known of the handles at the
start; it also says how the two results are related, given what is known at the end. -/
structure Simulation where
  Rel {α β : Type} (known : Reading) (m : Build α) (m' : Transcript β)
    (R : Reading → α → β → Prop) : Prop
  weaken {α β : Type} {known known' : Reading} {R : Reading → α → β → Prop} {m : Build α}
    {m' : Transcript β} (hsub : ∀ h t, known h t → known' h t) (hm : Rel known m m' R) :
    Rel known' m m' R
  pure {α β : Type} {known : Reading} {R : Reading → α → β → Prop} {a : α} {b : β}
    (hR : ∀ reading : Reading, (∀ h t, known h t → reading h t) → R reading a b) :
    Rel known (Pure.pure a) (Pure.pure b) R
  /-- The second construction may rely on all that is known after the first. -/
  bind {α β γ δ : Type} {known : Reading} {R : Reading → α → β → Prop} {Q : Reading → γ → δ → Prop}
    {m : Build α} {m' : Transcript β} {f : α → Build γ} {f' : β → Transcript δ}
    (hm : Rel known m m' R)
    (hf : ∀ a (reading : Reading), (∀ h t, known h t → reading h t) → R reading a m'.result →
      Rel reading (f a) (f' m'.result) Q) :
    Rel known (m >>= f) (m' >>= f') Q
  /-- An operation over known operands. -/
  op {known : Reading} (o : Op Word (Handle × Tree)) (ho : ∀ a ∈ o.operands, known a.1 a.2) :
    Rel known (Build.op (o.map Prod.fst)) (Build.op (o.map Prod.snd)) id

namespace Simulation

variable (sim : Simulation) {known : Reading}

/-- Constructions for the members of a list, one after the other. -/
theorem mapM {ι α β : Type} {R : Reading → α → β → Prop} {f : ι → Build α} {f' : ι → Transcript β}
    (hmono : ∀ {a b} {reading reading' : Reading}, (∀ h t, reading h t → reading' h t) →
      R reading a b → R reading' a b)
    {l : List ι} (hf : ∀ i ∈ l, sim.Rel known (f i) (f' i) R) :
    sim.Rel known (l.mapM f) (l.mapM f') fun reading => List.Forall₂ (R reading) := by
  induction l generalizing known with
  | nil => exact sim.pure fun _ _ => .nil
  | cons i rest ih =>
    rw [List.mapM_cons, List.mapM_cons]
    apply sim.bind (hf i List.mem_cons_self)
    intro a reading hsub ha
    apply sim.bind (ih fun j hj => sim.weaken hsub (hf j (List.mem_cons_of_mem _ hj)))
    intro as reading' hsub' has
    exact sim.pure fun reading'' hsub'' =>
      .cons (hmono (fun h t ht => hsub'' h t (hsub' h t ht)) ha)
        (has.imp fun _ _ hb => hmono hsub'' hb)

section
variable {a b c d : Handle} {s t u v : Tree}

theorem var (x : Var) : sim.Rel known (Build.var x) (Build.var x) id :=
  sim.op (.var x) (by simp [Op.operands])

theorem constant (value : Vec3 Word) :
    sim.Rel known (Build.constant value) (Build.constant value) id :=
  sim.op (.constant value) (by simp [Op.operands])

theorem splat (value : Word) : sim.Rel known (Build.splat value) (Build.splat value) id :=
  sim.constant _

theorem unary (f : Unary) (ha : known a s) :
    sim.Rel known (Build.unary f a) (Build.unary f s) id :=
  sim.op (.unary f (a, s)) (by simp [Op.operands, ha])

theorem binary (f : Binary) (ha : known a s) (hb : known b t) :
    sim.Rel known (Build.binary f a b) (Build.binary f s t) id :=
  sim.op (.binary f (a, s) (b, t)) (by simp [Op.operands, ha, hb])

theorem component (axis : Axis) (ha : known a s) :
    sim.Rel known (Build.component a axis) (Build.component s axis) id :=
  sim.op (.component (a, s) axis) (by simp [Op.operands, ha])

theorem compose (ha : known a s) (hb : known b t) (hc : known c u) :
    sim.Rel known (Build.compose a b c) (Build.compose s t u) id :=
  sim.op (.compose (a, s) (b, t) (c, u)) (by simp [Op.operands, ha, hb, hc])

theorem clamp (ha : known a s) (hb : known b t) (hc : known c u) :
    sim.Rel known (Build.clamp a b c) (Build.clamp s t u) id :=
  sim.op (.clamp (a, s) (b, t) (c, u)) (by simp [Op.operands, ha, hb, hc])

theorem mix (ha : known a s) (hb : known b t) (hc : known c u) :
    sim.Rel known (Build.mix a b c) (Build.mix s t u) id :=
  sim.op (.mix (a, s) (b, t) (c, u)) (by simp [Op.operands, ha, hb, hc])

theorem select (ha : known a s) (hb : known b t) (hc : known c u) (hd : known d v) :
    sim.Rel known (Build.select a b c d) (Build.select s t u v) id :=
  sim.op (.select (a, s) (b, t) (c, u) (d, v)) (by simp [Op.operands, ha, hb, hc, hd])

theorem rotate (ha : known a s) (hb : known b t) (hc : known c u) :
    sim.Rel known (Build.rotate a b c) (Build.rotate s t u) id :=
  sim.op (.rotate (a, s) (b, t) (c, u)) (by simp [Op.operands, ha, hb, hc])

theorem random (ha : known a s) : sim.Rel known (Build.random a) (Build.random s) id :=
  sim.op (.random (a, s)) (by simp [Op.operands, ha])

theorem mandelbulb (n : UInt32) (ha : known a s) (hb : known b t) :
    sim.Rel known (Build.op (.mandelbulb a b n)) (Build.op (.mandelbulb s t n)) id :=
  sim.op (.mandelbulb (a, s) (b, t) n) (by simp [Op.operands, ha, hb])

theorem fold (n : UInt32) (ha : known a s) :
    sim.Rel known (Build.op (.fold a n)) (Build.op (.fold s n)) id :=
  sim.op (.fold (a, s) n) (by simp [Op.operands, ha])

end

section
variable {pairs : List (Handle × Tree)} {γ δ : Type} {Q : Reading → γ → δ → Prop} {p : Build Handle}
  {p' : Transcript Tree} {g : Handle → Build γ} {g' : Tree → Transcript δ}

theorem andThen (hp : sim.Rel (Known pairs) p p' id)
    (hg : ∀ h, sim.Rel (Known ((h, p'.result) :: pairs)) (g h) (g' p'.result) Q) :
    sim.Rel (Known pairs) (p >>= g) (p' >>= g') Q := by
  apply sim.bind hp
  intro h reading hsub hh
  refine sim.weaken ?_ (hg h)
  intro a t ht
  rcases known_cons.1 ht with ⟨rfl, rfl⟩ | hold
  · exact hh
  · exact hsub a t hold

theorem lanes (f : Binary) {a : Handle} {s : Tree} (ha : Known pairs a s) :
    sim.Rel (Known pairs) (Build.lanes f a) (Build.lanes f s) id := by
  refine sim.andThen (sim.component .x ha) fun x => ?_
  refine sim.andThen (sim.component .y (by simp [ha])) fun y => ?_
  refine sim.andThen (sim.component .z (by simp [ha])) fun z => ?_
  refine sim.andThen (sim.binary f (by simp) (by simp)) fun yz => ?_
  exact sim.binary f (by simp) (by simp)

/-- A loop over a list, each round of which makes a handle from the one before. -/
theorem foldlM {ι : Type} {f : Handle → ι → Build Handle} {f' : Tree → ι → Transcript Tree}
    (hf : ∀ i (pairs' : List (Handle × Tree)) {h : Handle} {t : Tree},
      (∀ a s, Known pairs a s → Known pairs' a s) → Known pairs' h t →
      sim.Rel (Known pairs') (f h i) (f' t i) id)
    (l : List ι) {h : Handle} {t : Tree} (hh : Known pairs h t) :
    sim.Rel (Known pairs) (l.foldlM f h) (l.foldlM f' t) id := by
  induction l generalizing pairs h t with
  | nil => exact sim.pure fun reading hsub => hsub h t hh
  | cons i rest ih =>
    rw [List.foldlM_cons, List.foldlM_cons]
    refine sim.andThen (hf i pairs (fun _ _ ht => ht) hh) fun h' => ?_
    refine ih (fun i pairs' h t hsub hh' => ?_) (by simp)
    exact hf i pairs' (fun a s ha => hsub a s (by simp [ha])) hh'

end

end Simulation

/-! ## Facts about the construction alone -/

/-- What is kept when constructions are put together, whatever their handles lead to. -/
def Simulation.plain (P : {α β : Type} → Build α → Transcript β → Prop)
    (pure : ∀ {α β : Type} (a : α) (b : β), P (Pure.pure a) (Pure.pure b))
    (bind : ∀ {α β γ δ : Type} {m : Build α} {m' : Transcript β} {f : α → Build γ}
      {f' : β → Transcript δ}, P m m' → (∀ arena, P (f (m.run arena).1) (f' m'.result)) →
      P (m >>= f) (m' >>= f'))
    (op : ∀ (o : GraphOp) (o' : Op Word Tree), P (Build.op o : Build Handle) (Build.op o')) :
    Simulation where
  Rel _ m m' R := P m m' ∧ ∀ arena, R (fun _ _ => True) (m.run arena).1 m'.result
  weaken _ hm := hm
  pure hR := ⟨pure _ _, fun _ => hR _ fun _ _ _ => trivial⟩
  bind {_ _ _ _ _ _ _ m _ _ _} hm hf := by
    have hnext (arena : Arena) := hf _ _ (fun _ _ _ => trivial) (hm.2 arena)
    exact ⟨bind hm.1 fun arena => (hnext arena).1, fun arena => (hnext arena).2 _⟩
  op _ _ := ⟨op _ _, fun _ => trivial⟩

theorem Arena.size_intern_le (op : GraphOp) (arena : Arena) :
    (intern op arena).2.size ≤ arena.size + 1 := by
  unfold intern
  split
  · exact Nat.le_succ _
  · exact Nat.le_of_eq (Array.size_push _)

/-- A construction adds at most one node for each operation of the transcript. -/
def Simulation.counted : Simulation :=
  .plain (fun m m' => ∀ arena : Arena, (m.run arena).2.size ≤ arena.size + m'.made.length)
    (fun _ _ arena => Nat.le_refl _)
    (fun {_ _ _ _ m _ _ _} hm hf arena => by
      have hfirst := hm arena
      have hsecond := hf arena (m.run arena).2
      rw [Transcript.made_bind, List.length_append, ← Nat.add_assoc]
      exact Nat.le_trans hsecond (Nat.add_le_add_right hfirst _))
    (fun o _ => Arena.size_intern_le o)

/-! ## Terms -/

namespace Term

/-- No node of an arena is captured. -/
def Closed {κ : Type} : Term κ → Prop
  | var _ => True
  | constant _ => True
  | here => True
  | cell => True
  | captured _ => False
  | unary _ a => a.Closed
  | binary _ a b => a.Closed ∧ b.Closed
  | clamp a b c => a.Closed ∧ b.Closed ∧ c.Closed
  | mix a b c => a.Closed ∧ b.Closed ∧ c.Closed
  | select a b c d => a.Closed ∧ b.Closed ∧ c.Closed ∧ d.Closed
  | component a _ => a.Closed
  | compose a b c => a.Closed ∧ b.Closed ∧ c.Closed
  | rotate a b c => a.Closed ∧ b.Closed ∧ c.Closed
  | random a => a.Closed
  | mandelbulb a b _ => a.Closed ∧ b.Closed
  | fold a _ => a.Closed
  | lanes _ a => a.Closed
  | after first body => first.Closed ∧ body.Closed

/-- A term that captures no node is built as its transcript says. -/
theorem assemble_related (sim : Simulation) {t : Term Word} (ht : t.Closed)
    {pairs : List (Handle × Tree)} {p c : Handle} {p' c' : Tree} (hp : Known pairs p p')
    (hc : Known pairs c c') :
    sim.Rel (Known pairs) (t.assemble ⟨p, c⟩) (t.assemble ⟨p', c'⟩) id := by
  induction t generalizing pairs with
  | var v => exact sim.var v
  | constant value => exact sim.constant value
  | here => exact sim.pure fun reading hsub => hsub p p' hp
  | cell => exact sim.pure fun reading hsub => hsub c c' hc
  | captured h => exact ht.elim
  | unary f a iha =>
    refine sim.andThen (iha ht hp hc) fun x => ?_
    exact sim.unary f (by simp)
  | binary f a b iha ihb =>
    refine sim.andThen (iha ht.1 hp hc) fun x => ?_
    refine sim.andThen (ihb ht.2 (by simp [hp]) (by simp [hc])) fun y => ?_
    exact sim.binary f (by simp) (by simp)
  | clamp a b c iha ihb ihc =>
    refine sim.andThen (iha ht.1 hp hc) fun x => ?_
    refine sim.andThen (ihb ht.2.1 (by simp [hp]) (by simp [hc])) fun y => ?_
    refine sim.andThen (ihc ht.2.2 (by simp [hp]) (by simp [hc])) fun z => ?_
    exact sim.clamp (by simp) (by simp) (by simp)
  | mix a b c iha ihb ihc =>
    refine sim.andThen (iha ht.1 hp hc) fun x => ?_
    refine sim.andThen (ihb ht.2.1 (by simp [hp]) (by simp [hc])) fun y => ?_
    refine sim.andThen (ihc ht.2.2 (by simp [hp]) (by simp [hc])) fun z => ?_
    exact sim.mix (by simp) (by simp) (by simp)
  | select a b c d iha ihb ihc ihd =>
    refine sim.andThen (iha ht.1 hp hc) fun x => ?_
    refine sim.andThen (ihb ht.2.1 (by simp [hp]) (by simp [hc])) fun y => ?_
    refine sim.andThen (ihc ht.2.2.1 (by simp [hp]) (by simp [hc])) fun z => ?_
    refine sim.andThen (ihd ht.2.2.2 (by simp [hp]) (by simp [hc])) fun w => ?_
    exact sim.select (by simp) (by simp) (by simp) (by simp)
  | component a axis iha =>
    refine sim.andThen (iha ht hp hc) fun x => ?_
    exact sim.component axis (by simp)
  | compose a b c iha ihb ihc =>
    refine sim.andThen (iha ht.1 hp hc) fun x => ?_
    refine sim.andThen (ihb ht.2.1 (by simp [hp]) (by simp [hc])) fun y => ?_
    refine sim.andThen (ihc ht.2.2 (by simp [hp]) (by simp [hc])) fun z => ?_
    exact sim.compose (by simp) (by simp) (by simp)
  | rotate a b c iha ihb ihc =>
    refine sim.andThen (iha ht.1 hp hc) fun x => ?_
    refine sim.andThen (ihb ht.2.1 (by simp [hp]) (by simp [hc])) fun y => ?_
    refine sim.andThen (ihc ht.2.2 (by simp [hp]) (by simp [hc])) fun z => ?_
    exact sim.rotate (by simp) (by simp) (by simp)
  | random a iha =>
    refine sim.andThen (iha ht hp hc) fun x => ?_
    exact sim.random (by simp)
  | mandelbulb a b n iha ihb =>
    refine sim.andThen (iha ht.1 hp hc) fun x => ?_
    refine sim.andThen (ihb ht.2 (by simp [hp]) (by simp [hc])) fun y => ?_
    exact sim.mandelbulb n (by simp) (by simp)
  | fold a n iha =>
    refine sim.andThen (iha ht hp hc) fun x => ?_
    exact sim.fold n (by simp)
  | lanes f a iha =>
    refine sim.andThen (iha ht hp hc) fun x => ?_
    exact sim.lanes f (by simp)
  | after first body ihfirst ihbody =>
    refine sim.andThen (ihfirst ht.1 hp hc) fun x => ?_
    exact ihbody ht.2 (by simp [hp]) (by simp [hc])

end Term

end SphereTracer
