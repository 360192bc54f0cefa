import SphereTracer.Proofs.Interpreter.Answers
import SphereTracer.Proofs.Kernel.Compositional
import SphereTracer.Proofs.Numbers.Order
import SphereTracer.Proofs.Shape.Alone

/-!
# The nearest entity

The search for the nearest entity passes over all of them once, by ascending id, and keeps the first
of the nearest.  It finds what a comparison of all distances finds, each taken through an arena of
its own.
-/

namespace SphereTracer

open SphereTracer.Graph

/-! ## Scans -/

section
variable {ι κ : Type}

/-- The nearest of some candidates within range, of equal ones that of the least id; nothing if none
is within range.  A candidate that is away by NaN is not within range. -/
structure Closest.Scans (l : List ι) (id : ι → UInt32) (away : ι → Float32)
    (closest : Closest Float32) : Prop where
  none : (∀ a ∈ l, ¬ away a < maxDistance) → closest = ⟨0, maxDistance⟩
  some : (∃ a ∈ l, away a < maxDistance) → ∃ a ∈ l, closest = ⟨id a, away a⟩ ∧
    (∀ b ∈ l, ¬ (away b).isNaN → away a ≤ away b) ∧ ∀ b ∈ l, away b == away a → id a ≤ id b
  not_isNaN : ¬ closest.distance.isNaN
  le_max : closest.distance ≤ maxDistance

/-- What a search has found once some candidates have been offered. -/
structure Closest.Found (l : List ι) (id : ι → UInt32) (away : ι → Float32)
    (closest : Closest Float32) : Prop where
  not_lt : ∀ a ∈ l, ¬ away a < closest.distance
  origin : closest = .none ∨ ∃ a ∈ l, closest = ⟨id a, away a⟩ ∧ away a < maxDistance ∧
    ∀ b ∈ l, away b == away a → id a ≤ id b

namespace Closest

variable {l : List ι} {id : ι → UInt32} {away : ι → Float32} {closest : Closest Float32}

theorem offer_eq (closest : Closest Float32) (i : UInt32) (d : Float32) :
    closest.offer i d = if d < closest.distance then ⟨i, d⟩ else closest := by
  simp [offer, Scalar.lt]

namespace Found

theorem start : Found [] id away .none := ⟨by simp, .inl rfl⟩

theorem distance_cases (h : Found l id away closest) :
    closest.distance = maxDistance ∨ closest.distance < maxDistance := by
  rcases h.origin with rfl | ⟨a, -, rfl, hlt, -⟩
  · exact .inl rfl
  · exact .inr hlt

/-- A candidate is offered whose id is above those of the candidates before it. -/
theorem offer (h : Found l id away closest) {a : ι} (ha : ∀ b ∈ l, id b < id a) :
    Found (l ++ [a]) id away (closest.offer (id a) (away a)) := by
  rw [offer_eq]
  by_cases hlt : away a < closest.distance
  · rw [if_pos hlt]
    have hrange : away a < maxDistance :=
      h.distance_cases.elim (fun heq => heq ▸ hlt) (Binary32.lt_trans hlt)
    have hfirst : ∀ b ∈ l, away b == away a → id a ≤ id b := fun b hb heq =>
      absurd (Binary32.lt_of_beq_of_lt heq hlt) (h.not_lt b hb)
    constructor
    · rw [List.forall_mem_append, List.forall_mem_singleton]
      exact ⟨fun b hb hba => h.not_lt b hb (Binary32.lt_trans hba hlt), Binary32.lt_irrefl _⟩
    · refine .inr ⟨a, List.mem_append_right _ List.mem_cons_self, rfl, hrange, ?_⟩
      rw [List.forall_mem_append, List.forall_mem_singleton]
      exact ⟨hfirst, fun _ => UInt32.le_refl _⟩
  -- The search keeps what it has; an equal candidate comes later and has a greater id.
  · rw [if_neg hlt]
    constructor
    · rw [List.forall_mem_append, List.forall_mem_singleton]
      exact ⟨h.not_lt, hlt⟩
    · refine h.origin.imp_right ?_
      rintro ⟨b, hb, heq, hrange, hfirst⟩
      refine ⟨b, List.mem_append_left _ hb, heq, hrange, ?_⟩
      rw [List.forall_mem_append, List.forall_mem_singleton]
      exact ⟨hfirst, fun _ => UInt32.le_of_lt (ha b hb)⟩

theorem foldl {rest : List ι} (h : Found l id away closest)
    (hasc : (l ++ rest).Pairwise fun a b => id a < id b) :
    Found (l ++ rest) id away
      (rest.foldl (fun best a => best.offer (id a) (away a)) closest) := by
  induction rest generalizing l closest with
  | nil => rwa [List.append_nil]
  | cons a rest ih =>
    rw [List.append_cons] at hasc ⊢
    -- Ids ascend over what has been offered and what is left.
    have hbefore := (List.pairwise_append.1 (List.pairwise_append.1 hasc).1).2.2
    exact ih (h.offer fun b hb => hbefore b hb a List.mem_cons_self) hasc

theorem scans (h : Found l id away closest) : Scans l id away closest where
  none hnone := by
    rcases h.origin with rfl | ⟨a, ha, -, hlt, -⟩
    · rfl
    · exact absurd hlt (hnone a ha)
  some := by
    rintro ⟨b, hb, hlt⟩
    rcases h.origin with rfl | ⟨a, ha, rfl, hrange, hfirst⟩
    · exact absurd hlt (h.not_lt b hb)
    · refine ⟨a, ha, rfl, fun b hb hnan => ?_, hfirst⟩
      exact Binary32.le_of_not_lt hnan (Binary32.not_isNaN_of_lt hrange).1 (h.not_lt b hb)
  not_isNaN := by
    rcases h.origin with rfl | ⟨a, -, rfl, hrange, -⟩
    · decide +kernel
    · exact (Binary32.not_isNaN_of_lt hrange).1
  le_max := by
    rcases h.origin with rfl | ⟨a, -, rfl, hrange, -⟩
    · decide +kernel
    · exact Binary32.le_of_lt hrange

end Found

theorem Scans.congr {l' : List κ} {id' : κ → UInt32} {away' : κ → Float32}
    (h : Scans l id away closest)
    (hto : ∀ a ∈ l, ∃ b ∈ l', id a = id' b ∧ away a = away' b)
    (hfrom : ∀ b ∈ l', ∃ a ∈ l, id a = id' b ∧ away a = away' b) :
    Scans l' id' away' closest where
  none hnone := by
    refine h.none fun a ha => ?_
    obtain ⟨b, hb, -, hab⟩ := hto a ha
    exact hab ▸ hnone b hb
  some := by
    rintro ⟨b, hb, hlt⟩
    obtain ⟨a, ha, -, hab⟩ := hfrom b hb
    obtain ⟨a₁, ha₁, hclosest, hleast, hfirst⟩ := h.some ⟨a, ha, hab ▸ hlt⟩
    obtain ⟨b₁, hb₁, hid, haway⟩ := hto a₁ ha₁
    rw [haway] at hleast
    rw [haway, hid] at hclosest hfirst
    refine ⟨b₁, hb₁, hclosest, fun c hc => ?_, fun c hc => ?_⟩
    · obtain ⟨a₂, ha₂, -, hac⟩ := hfrom c hc
      exact hac ▸ hleast a₂ ha₂
    · obtain ⟨a₂, ha₂, hid₂, hac⟩ := hfrom c hc
      rw [← hid₂, ← hac]
      exact hfirst a₂ ha₂
  not_isNaN := h.not_isNaN
  le_max := h.le_max

theorem Scans.unique {closest' : Closest Float32} (h : Scans l id away closest)
    (h' : Scans l id away closest') (hids : ∀ a ∈ l, ∀ b ∈ l, id a = id b → a = b) :
    closest = closest' := by
  by_cases hsome : ∃ a ∈ l, away a < maxDistance
  · obtain ⟨a, ha, rfl, hle, hfirst⟩ := h.some hsome
    obtain ⟨b, hb, rfl, hle', hfirst'⟩ := h'.some hsome
    have hab := hle b hb h'.not_isNaN
    have hba := hle' a ha h.not_isNaN
    have hid := UInt32.le_antisymm (hfirst b hb (Binary32.beq_of_le_of_le hba hab))
      (hfirst' a ha (Binary32.beq_of_le_of_le hab hba))
    rw [hids a ha b hb hid]
  · have hnone : ∀ a ∈ l, ¬ away a < maxDistance := fun a ha hlt => hsome ⟨a, ha, hlt⟩
    rw [h.none hnone, h'.none hnone]

end Closest

end

/-! ## Scenes -/

namespace Interpreter

variable {scene : Scene} {options : Options Word} {program : Program}

/-- An entity of a scene is part of the program, where it is away by the value of its tree, which is
the distance of its shape alone. -/
theorem gives_alone {S : Type} [Scalar S] (hscene : scene.Closed)
    (hroom : scene.build.Room scene.assemble ∅) (h : Program.ofScene scene options = .ok program)
    {entity : Entity} (hentity : entity ∈ scene.entities) (environment : Environment S)
    (p : Vec3 S) :
    let d := (entity.trees.distance.eval (bindings environment p .zero .zero)).x
    entity.shape.distanceUnder (bindings environment p .zero .zero) = .ok d ∧
      ∃ e ∈ program.entities, e.id = entity.id ∧
        Gives program environment (·.distance e p) d := by
  obtain ⟨hvalid, hroots⟩ := Program.ofScene_eq_ok_iff.1 h
  have hprogram := Program.wellFormed_of_ofRoots hroots hvalid
  obtain ⟨hw, hdescribes, -⟩ := Scene.build_describes hscene hroom
  obtain ⟨roots, e, hr, hof, hfound⟩ := Program.exists_entity hdescribes hroots hentity
  obtain ⟨he, hid⟩ := hprogram.entity?_iff.1 hfound
  obtain ⟨hdistance, -, rfl⟩ := Program.ofEntity_eq_ok_iff.1 hof
  obtain ⟨horder, -⟩ := Program.arrange_eq_ok_iff.1 hdistance
  obtain ⟨halone, hroot⟩ := Shape.alone_denotes (hscene.entities entity hentity).1
    (Scene.room_alone hscene hroom hentity)
  have hnodes : program.nodes = (scene.build.run ∅).2.nodes :=
    (Program.of_of_ofRoots hroots).nodes
  have ht : Denotes program.nodes e.distance entity.trees.distance := hnodes ▸ hr.distance
  refine ⟨Shape.distanceUnder_eq hw hr.distance halone hroot horder _, e, he,
    Program.id_eq_iff.2 hid, ?_⟩
  exact gives_distance (hprogram.distance e he) ht p

theorem eq_of_id_eq (h : Program.ofScene scene options = .ok program) {a b : Entity}
    (ha : a ∈ scene.entities) (hb : b ∈ scene.entities) (hab : a.id.raw = b.id.raw) : a = b := by
  obtain ⟨-, hnodup, -⟩ := Program.ofRoots_eq_ok_iff.1 (Program.ofScene_eq_ok_iff.1 h).2
  rw [Scene.map_id_entities] at hnodup
  exact List.inj_on_of_nodup_map hnodup ha hb (Program.id_eq_iff.2 hab)

theorem exists_scans (hscene : scene.Closed) (hroom : scene.build.Room scene.assemble ∅)
    (h : Program.ofScene scene options = .ok program) (environment : Environment Float32)
    (p : Vec3 Float32) :
    ∃ distance : Entity → Float32,
      (∀ entity ∈ scene.entities,
        entity.shape.distanceUnder (bindings environment p .zero .zero) = .ok (distance entity)) ∧
      ∀ it : Interpreter Float32, it.Of program environment →
        Closest.Scans scene.entities (·.id.raw) (fun entity => (distance entity).abs)
          (it.closest p).1 := by
  have hall : ∀ entity ∈ scene.entities, ∃ d,
      entity.shape.distanceUnder (bindings environment p .zero .zero) = .ok d ∧
        ∃ e ∈ program.entities, e.id = entity.id ∧
          Gives program environment (·.distance e p) d :=
    fun _ hentity => ⟨_, gives_alone hscene hroom h hentity environment p⟩
  choose! distance hdistance hplace using hall
  obtain ⟨hprogram, hof, -⟩ := Program.spec_of_ofScene h
  have hsource : ∀ e ∈ program.entities, ∃ d, (∃ entity ∈ scene.entities,
      e.id = entity.id ∧ d = distance entity) ∧ Gives program environment (·.distance e p) d := by
    intro e he
    have hmem := hof.ids.mem_iff.1 (List.mem_map_of_mem (Array.mem_toList_iff.2 he))
    obtain ⟨entity, hentity, heq⟩ := List.mem_map.1 hmem
    obtain ⟨e', he', hid, hgives⟩ := hplace entity hentity
    have hfound := hprogram.entity?_iff.2 ⟨he', rfl⟩
    rw [hid, heq, hprogram.entity?_iff.2 ⟨he, rfl⟩] at hfound
    cases hfound
    exact ⟨_, ⟨entity, hentity, hid, rfl⟩, hgives⟩
  choose! value hvalue hgives using hsource
  refine ⟨distance, hdistance, fun it hit => ?_⟩
  rw [(gives_closest hgives it hit).1]
  have hfound : Closest.Found program.entities.toList (·.id.raw) (fun e => (value e).abs) _ :=
    Closest.Found.start.foldl hprogram.ascending
  refine hfound.scans.congr (fun e he => ?_) fun entity hentity => ?_
  · obtain ⟨entity, hentity, hid, heq⟩ := hvalue e (Array.mem_toList_iff.1 he)
    exact ⟨entity, hentity, congrArg EntityId.raw hid, congrArg Float32.abs heq⟩
  · obtain ⟨e, he, hid, -⟩ := hplace entity hentity
    obtain ⟨entity', hentity', hid', heq⟩ := hvalue e he
    have hsame : entity' = entity :=
      eq_of_id_eq h hentity' hentity (congrArg EntityId.raw (hid'.symm.trans hid))
    rw [hsame] at heq
    exact ⟨e, Array.mem_toList_iff.2 he, congrArg EntityId.raw hid, congrArg Float32.abs heq⟩

/-- The nearest entity is the one that a comparison of all distances finds, where the distance of an
entity is that of its shape alone.  If some absolute distance is below the greatest there is, the
least of them is found, without those that are NaN, and of the entities that are so near the one of
the least id; else nothing is, at the greatest distance.  What is found is never away by NaN or by
more than that, and it is the same however the entities are listed.

This goes for a new interpreter of the scene's program and for any that has answered questions. -/
theorem closest_scans_alone (hscene : scene.Closed)
    (hsize : (scene.build.run ∅).2.size ≤ UInt32.size)
    (h : Program.ofScene scene options = .ok program) (environment : Environment Float32)
    (p : Vec3 Float32) :
    (∃ distance : Entity → Float32,
      (∀ entity ∈ scene.entities,
        entity.shape.distanceUnder (bindings environment p .zero .zero) = .ok (distance entity)) ∧
      ∀ it : Interpreter Float32, it.Of program environment →
        Closest.Scans scene.entities (·.id.raw) (fun entity => (distance entity).abs)
          (it.closest p).1) ∧
    ∀ scene' : Scene, scene'.entities.Perm scene.entities → scene'.camera = scene.camera →
      scene'.air = scene.air → ∃ program', Program.ofScene scene' options = .ok program' ∧
        ∀ it it' : Interpreter Float32, it.Of program environment → it'.Of program' environment →
          (it'.closest p).1 = (it.closest p).1 := by
  obtain ⟨distance, hdistance, hscans⟩ := exists_scans hscene (.inl hsize) h environment p
  refine ⟨⟨distance, hdistance, hscans⟩, fun scene' hperm hcamera hair => ?_⟩
  have hscene' : scene'.Closed := hscene.of_perm hperm hcamera hair
  have hroom' := Scene.room_of_same_made hscene hsize (Scene.mem_made_of_perm hperm hcamera hair)
  obtain ⟨kernel', hkernel', -⟩ := Kernel.ofScene_of_perm hscene hscene' (.inl hsize) hroom' hperm
    hcamera hair (Kernel.ofScene_eq_ok_iff.2 ⟨program, h, rfl⟩)
  obtain ⟨program', hprogram', rfl⟩ := Kernel.ofScene_eq_ok_iff.1 hkernel'
  obtain ⟨distance', hdistance', hscans'⟩ := exists_scans hscene' hroom' hprogram' environment p
  refine ⟨program', hprogram', fun it it' hit hit' => ?_⟩
  have hsame : ∀ entity ∈ scene.entities, distance' entity = distance entity := by
    intro entity hentity
    have hboth := hdistance' entity (hperm.mem_iff.2 hentity)
    rw [hdistance entity hentity] at hboth
    exact (Except.ok.inj hboth).symm
  have hmoved : Closest.Scans scene.entities (·.id.raw) (fun entity => (distance entity).abs)
      (it'.closest p).1 := by
    refine (hscans' it' hit').congr (fun entity hentity => ?_) fun entity hentity => ?_
    · have hmem := hperm.mem_iff.1 hentity
      exact ⟨entity, hmem, rfl, congrArg Float32.abs (hsame entity hmem)⟩
    · exact ⟨entity, hperm.mem_iff.2 hentity, rfl, congrArg Float32.abs (hsame entity hentity)⟩
  exact hmoved.unique (hscans it hit) fun a ha b hb => eq_of_id_eq h ha hb

open Kernel in
/-- It makes no difference whether the ball or the ground is listed first. -/
theorem closest_scans_alone_stage :
    ∃ program program', Program.ofScene (stage [ground, ball]) .standard = .ok program ∧
      Program.ofScene (stage [ball, ground]) .standard = .ok program' ∧
      let found := ((new program ⟨⟨0.0, 0.0⟩, 0.5⟩).closest (.one : Vec3 Float32)).1
      ((new program' ⟨⟨0.0, 0.0⟩, 0.5⟩).closest .one).1 = found ∧
        ¬ found.distance.isNaN ∧ found.distance ≤ maxDistance := by
  have hmembers : [ground, ball] ⊆ [ball, ground] := by simp
  obtain ⟨hsize, program, hprogram⟩ := exists_program_swapped
  obtain ⟨⟨distance, -, hscans⟩, hperm⟩ :=
    closest_scans_alone (stage_closed hmembers) hsize hprogram ⟨⟨0.0, 0.0⟩, 0.5⟩ .one
  obtain ⟨program', hprogram', hsame⟩ := hperm (stage [ball, ground]) (.swap _ _ _) rfl rfl
  have hfound := hscans _ (of_new program _)
  exact ⟨program, program', hprogram, hprogram', hsame _ _ (of_new _ _) (of_new _ _),
    hfound.not_isNaN, hfound.le_max⟩

end Interpreter

end SphereTracer
