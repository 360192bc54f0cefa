import Mathlib
import SphereTracer.Scene

/-!
# Entities in order

Whatever calls a builder receives, the entities of its scene are the ones that were added, in that
order, and their ids count from one.  A builder holds the id of its next entity, so the ids run out one
entity before the numbers do.
-/

namespace SphereTracer

namespace SceneBuilder

/-! ## Calls -/

/-- A call of a builder.  Both ways of adding an entity number it; only one of them tells the id. -/
inductive Call where
  | push (shape : Shape Word) (material : Material (Term Word))
  | entity (shape : Shape Word) (material : Material (Term Word))
  | camera (camera : Camera (Term Word))
  | air (air : Material (Term Word))

def Call.added? : Call → Option (Shape Word × Material (Term Word))
  | push shape material => some (shape, material)
  | entity shape material => some (shape, material)
  | _ => none

def Call.camera? : Call → Option (Camera (Term Word))
  | .camera c => some c
  | _ => none

def Call.air? : Call → Option (Material (Term Word))
  | .air a => some a
  | _ => none

def added (calls : List Call) : List (Shape Word × Material (Term Word)) := calls.filterMap Call.added?

/-- What a call answers, and the builder after it. -/
def act (builder : SceneBuilder) : Call → Option (Option EntityId × SceneBuilder)
  | .push shape material => (builder.push? shape material).map fun (id, next) => (some id, next)
  | .entity shape material => (builder.push? shape material).map fun (_, next) => (none, next)
  | .camera camera => some (none, builder.withCamera camera)
  | .air air => some (none, builder.withAir air)

/-- The answers to calls, one after the other, and the builder after them. -/
def run : SceneBuilder → List Call → Option (List (Option EntityId) × SceneBuilder)
  | builder, [] => some ([], builder)
  | builder, call :: calls => do
    let first ← builder.act call
    let rest ← first.2.run calls
    return (first.1 :: rest.1, rest.2)

end SceneBuilder

/-! ## Numbered entities -/

/-- The entities are the given ones, in their order, and their ids count from one. -/
structure Scene.Lists (scene : Scene) (added : List (Shape Word × Material (Term Word))) : Prop where
  parts : scene.entities.map (fun e => (e.shape, e.material)) = added
  ids : scene.entities.map (·.id.toNat) = List.range' 1 added.length

/-- The builder has received the calls: the entities are those that were added, the camera and the air
are the last ones that were given, and the id of the next entity is the next number. -/
structure SceneBuilder.Received (builder : SceneBuilder) (calls : List SceneBuilder.Call) : Prop where
  entities : builder.scene.Lists (added calls)
  camera : builder.scene.camera = (calls.filterMap Call.camera?).getLast?.getD .standard
  air : builder.scene.air = (calls.filterMap Call.air?).getLast?.getD .plain
  next : builder.nextId.toNat = (added calls).length + 1

namespace EntityId

theorem toNat_injective : Function.Injective toNat := by
  rintro ⟨raw, hraw⟩ ⟨raw', hraw'⟩ h
  obtain rfl : raw = raw' := UInt32.toNat_inj.1 h
  rfl

theorem toNat_pos (id : EntityId) : 0 < id.toNat :=
  Nat.pos_of_ne_zero fun h => id.ne_zero (UInt32.toNat_inj.1 h)

theorem next?_eq_some {id next : EntityId} : id.next? = some next ↔ id.raw + 1 = next.raw := by
  unfold next? ofRaw?
  constructor
  · intro h
    split at h
    · exact congrArg raw (Option.some.inj h)
    · cases h
  · intro h
    have hne : id.raw + 1 ≠ 0 := h ▸ next.ne_zero
    obtain ⟨raw, hraw⟩ := next
    obtain rfl : id.raw + 1 = raw := h
    exact dif_pos hne

theorem toNat_next {id next : EntityId} (h : id.next? = some next) : next.toNat = id.toNat + 1 := by
  have hsum : next.toNat = (id.toNat + 1) % 2 ^ 32 := by
    rw [toNat, ← next?_eq_some.1 h]
    exact UInt32.toNat_add _ _
  have hpos := next.toNat_pos
  have hlt : id.toNat < 2 ^ 32 := id.raw.toNat_lt
  omega

theorem isSome_next?_iff (id : EntityId) : id.next?.isSome ↔ id.toNat + 1 < 2 ^ 32 := by
  constructor
  · intro h
    obtain ⟨next, hnext⟩ := Option.isSome_iff_exists.1 h
    rw [← toNat_next hnext]
    exact next.raw.toNat_lt
  · intro h
    have hsum : (id.raw + 1).toNat = id.toNat + 1 :=
      (UInt32.toNat_add _ _).trans (Nat.mod_eq_of_lt h)
    have hne : id.raw + 1 ≠ 0 := fun h0 => by simp [h0] at hsum
    rw [next?, ofRaw?, dif_pos hne]
    rfl

end EntityId

namespace Scene

variable {scene : Scene} {added : List (Shape Word × Material (Term Word))}

theorem Lists.length_eq (h : scene.Lists added) : scene.entities.length = added.length := by
  rw [← h.parts, List.length_map]

theorem Lists.toNat_getElem (h : scene.Lists added) {i : ℕ} (hi : i < scene.entities.length) :
    scene.entities[i].id.toNat = i + 1 := by
  have hget : (scene.entities.map (·.id.toNat))[i]? = (List.range' 1 added.length)[i]? := by rw [h.ids]
  rw [List.getElem?_map, List.getElem?_eq_getElem hi,
    List.getElem?_range' (by rwa [← h.length_eq])] at hget
  have hid : scene.entities[i].id.toNat = 1 + 1 * i := Option.some.inj hget
  omega

theorem Lists.nodup (h : scene.Lists added) : (scene.entities.map (·.id)).Nodup := by
  have hids : ((scene.entities.map (·.id)).map EntityId.toNat).Nodup := by
    rw [List.map_map]
    exact h.ids ▸ List.nodup_range'
  exact hids.of_map

/-- The entity of an id stands at the place that the id counts. -/
theorem Lists.entity?_eq (h : scene.Lists added) (id : EntityId) :
    scene.entity? id = scene.entities[id.toNat - 1]? := by
  have hpos := id.toNat_pos
  unfold entity?
  by_cases hid : id.toNat - 1 < scene.entities.length
  · rw [List.getElem?_eq_getElem hid, List.find?_eq_some_iff_getElem]
    have hhere := h.toNat_getElem hid
    refine ⟨decide_eq_true (EntityId.toNat_injective (by omega)), _, hid, rfl, fun j hj => ?_⟩
    have hthere := h.toNat_getElem (hj.trans hid)
    simp only [Bool.not_eq_true', decide_eq_false_iff_not]
    intro heq
    rw [heq] at hthere
    omega
  · rw [List.getElem?_eq_none (not_lt.1 hid), List.find?_eq_none]
    intro e he heq
    obtain ⟨i, hi, rfl⟩ := List.getElem_of_mem he
    have hnumber := h.toNat_getElem hi
    rw [of_decide_eq_true heq] at hnumber
    omega

theorem Lists.concat (h : scene.Lists added) {entity : Entity}
    (hid : entity.id.toNat = added.length + 1) :
    { scene with entities := scene.entities ++ [entity] }.Lists
      (added ++ [(entity.shape, entity.material)]) where
  parts := by
    rw [← h.parts, List.map_append]
    rfl
  ids := by
    rw [List.map_append, h.ids, List.length_append, List.length_singleton, List.range'_1_concat,
      Nat.add_comm 1, ← hid]
    rfl

end Scene

namespace SceneBuilder

variable {builder next last : SceneBuilder} {before calls : List Call} {call : Call}
  {answer : Option EntityId} {answers : List (Option EntityId)}

theorem filterMap_concat {β : Type} (f : Call → Option β) (before : List Call) (call : Call) :
    (before ++ [call]).filterMap f = before.filterMap f ++ (f call).toList := by
  rw [List.filterMap_append]
  cases h : f call <;> simp [h]

theorem received_start : start.Received [] := ⟨⟨rfl, rfl⟩, rfl, rfl, rfl⟩

theorem Received.length_lt (h : builder.Received before) : (added before).length + 1 < 2 ^ 32 :=
  h.next ▸ builder.nextId.raw.toNat_lt

/-! ## One call -/

/-- An addition uses up the next id, if there is one for the entity after it. -/
theorem push?_eq_some {shape : Shape Word} {material : Material (Term Word)} {id : EntityId}
    (h : builder.push? shape material = some (id, next)) :
    id = builder.nextId ∧ builder.nextId.next? = some next.nextId ∧
      next.scene = { builder.scene with
        entities := builder.scene.entities ++ [⟨builder.nextId, shape, material⟩] } := by
  unfold push? at h
  split at h
  · cases h
  · next hnext =>
    obtain ⟨rfl, rfl⟩ := Prod.mk.inj (Option.some.inj h)
    exact ⟨rfl, hnext, rfl⟩

theorem isSome_push? (shape : Shape Word) (material : Material (Term Word)) :
    (builder.push? shape material).isSome = builder.nextId.next?.isSome := by
  unfold push?
  split <;> simp [*]

theorem Received.push (h : builder.Received before) {shape : Shape Word}
    {material : Material (Term Word)} {id : EntityId}
    (hpush : builder.push? shape material = some (id, next))
    (hcall : call = .push shape material ∨ call = .entity shape material) :
    next.Received (before ++ [call]) := by
  obtain ⟨-, hnext, hscene⟩ := push?_eq_some hpush
  obtain ⟨hadded, hcamera, hair⟩ : call.added? = some (shape, material) ∧ call.camera? = none ∧
      call.air? = none := by
    rcases hcall with rfl | rfl <;> exact ⟨rfl, rfl, rfl⟩
  refine ⟨?_, ?_, ?_, ?_⟩
  · rw [hscene, added, filterMap_concat, hadded]
    exact h.entities.concat h.next
  · rw [hscene, filterMap_concat, hcamera, Option.toList_none, List.append_nil]
    exact h.camera
  · rw [hscene, filterMap_concat, hair, Option.toList_none, List.append_nil]
    exact h.air
  · rw [EntityId.toNat_next hnext, h.next, added, added, filterMap_concat, hadded, List.length_append]
    rfl

theorem Received.act (h : builder.Received before) (hact : builder.act call = some (answer, next)) :
    next.Received (before ++ [call]) := by
  cases call with
  | push shape material =>
    obtain ⟨⟨id, next'⟩, hpush, heq⟩ := Option.map_eq_some_iff.1 hact
    obtain ⟨-, rfl⟩ := Prod.mk.inj heq
    exact h.push hpush (.inl rfl)
  | entity shape material =>
    obtain ⟨⟨id, next'⟩, hpush, heq⟩ := Option.map_eq_some_iff.1 hact
    obtain ⟨-, rfl⟩ := Prod.mk.inj heq
    exact h.push hpush (.inr rfl)
  | camera c =>
    obtain ⟨-, rfl⟩ := Prod.mk.inj (Option.some.inj hact)
    refine ⟨?_, ?_, ?_, ?_⟩ <;> simp only [added, filterMap_concat, Call.added?, Call.camera?,
      Call.air?, Option.toList_none, List.append_nil]
    · exact ⟨h.entities.parts, h.entities.ids⟩
    · rw [Option.toList_some, List.getLast?_concat]
      rfl
    · exact h.air
    · exact h.next
  | air a =>
    obtain ⟨-, rfl⟩ := Prod.mk.inj (Option.some.inj hact)
    refine ⟨?_, ?_, ?_, ?_⟩ <;> simp only [added, filterMap_concat, Call.added?, Call.camera?,
      Call.air?, Option.toList_none, List.append_nil]
    · exact ⟨h.entities.parts, h.entities.ids⟩
    · exact h.camera
    · rw [Option.toList_some, List.getLast?_concat]
      rfl
    · exact h.next

/-- A call fails only if it adds an entity and leaves no number for another one. -/
theorem Received.isSome_act (h : builder.Received before) (call : Call) :
    (builder.act call).isSome ↔ (added (before ++ [call])).length + 1 < 2 ^ 32 := by
  -- After `n` additions the next id is `n + 1`, and one more has to be an id as well.
  have hnext := builder.nextId.isSome_next?_iff
  rw [h.next] at hnext
  rw [added, filterMap_concat]
  cases call with
  | push shape material =>
    rw [List.length_append]
    exact Option.isSome_map.trans (isSome_push? shape material) ▸ hnext
  | entity shape material =>
    rw [List.length_append]
    exact Option.isSome_map.trans (isSome_push? shape material) ▸ hnext
  | camera c => exact ⟨fun _ => (List.append_nil (added before)).symm ▸ h.length_lt, fun _ => rfl⟩
  | air a => exact ⟨fun _ => (List.append_nil (added before)).symm ▸ h.length_lt, fun _ => rfl⟩

/-! ## All calls -/

theorem run_cons_eq_some {rest : List Call} {result : List (Option EntityId) × SceneBuilder} :
    builder.run (call :: rest) = some result ↔ ∃ answer next answers last,
      builder.act call = some (answer, next) ∧ next.run rest = some (answers, last) ∧
      result = (answer :: answers, last) := by
  rw [SceneBuilder.run]
  constructor
  · intro h
    obtain ⟨⟨answer, next⟩, hact, h⟩ := Option.bind_eq_some_iff.1 h
    obtain ⟨⟨answers, last⟩, hrest, h⟩ := Option.bind_eq_some_iff.1 h
    exact ⟨answer, next, answers, last, hact, hrest, (Option.some.inj h).symm⟩
  · rintro ⟨answer, next, answers, last, hact, hrest, rfl⟩
    simp only [hact, hrest, Option.bind_eq_bind, Option.bind_some]
    rfl

/-- After calls that have succeeded, everything is as they say. -/
theorem Received.run (h : builder.Received before)
    (hrun : builder.run calls = some (answers, last)) : last.Received (before ++ calls) := by
  -- The calls received so far grow as those to come are used up.
  induction calls generalizing builder before answers with
  | nil =>
    obtain ⟨-, rfl⟩ := Prod.mk.inj (Option.some.inj hrun)
    rwa [List.append_nil]
  | cons call rest ih =>
    obtain ⟨answer, next, answers', last', hact, hrest, heq⟩ := run_cons_eq_some.1 hrun
    obtain ⟨-, rfl⟩ := Prod.mk.inj heq
    have hlast := ih (h.act hact) hrest
    rwa [List.append_assoc] at hlast

/-- Calls succeed if and only if they leave a number for one more entity. -/
theorem Received.isSome_run (h : builder.Received before) (calls : List Call) :
    (builder.run calls).isSome ↔ (added (before ++ calls)).length + 1 < 2 ^ 32 := by
  induction calls generalizing builder before with
  | nil =>
    rw [List.append_nil]
    exact ⟨fun _ => h.length_lt, fun _ => rfl⟩
  | cons call rest ih =>
    have hsplit : before ++ call :: rest = before ++ [call] ++ rest := by simp
    have hlonger : (added (before ++ [call])).length ≤ (added (before ++ call :: rest)).length := by
      rw [hsplit]
      exact ((List.sublist_append_left (before ++ [call]) rest).filterMap Call.added?).length_le
    rw [SceneBuilder.run]
    rcases hstep : builder.act call with _ | ⟨answer, next⟩
    · have hfull := mt (h.isSome_act call).2 (by simp [hstep])
      exact ⟨fun hnone => absurd hnone (by simp), fun hroom => absurd hroom (by omega)⟩
    · have hrest := ih (h.act hstep)
      rw [← hsplit] at hrest
      rw [← hrest]
      show ((next.run rest).bind _).isSome ↔ _
      cases next.run rest <;> simp

/-- The answer to an addition that asks for it is the number of the entity. -/
theorem Received.answer_push (h : builder.Received before) {pre post : List Call} {shape : Shape Word}
    {material : Material (Term Word)}
    (hrun : builder.run (pre ++ .push shape material :: post) = some (answers, last)) :
    ∃ id : EntityId, answers[pre.length]? = some (some id) ∧
      id.toNat = (added (before ++ pre)).length + 1 := by
  induction pre generalizing builder before answers with
  | nil =>
    obtain ⟨answer, next, answers', last', hact, hrest, heq⟩ := run_cons_eq_some.1 hrun
    obtain ⟨⟨id, next'⟩, hpush, hanswer⟩ := Option.map_eq_some_iff.1 hact
    obtain ⟨rfl, -⟩ := Prod.mk.inj hanswer
    obtain ⟨rfl, -⟩ := Prod.mk.inj heq
    obtain ⟨rfl, -⟩ := push?_eq_some hpush
    rw [List.append_nil]
    exact ⟨_, rfl, h.next⟩
  | cons call rest ih =>
    obtain ⟨answer, next, answers', last', hact, hrest, heq⟩ := run_cons_eq_some.1 hrun
    obtain ⟨rfl, rfl⟩ := Prod.mk.inj heq
    have hanswer := ih (h.act hact) hrest
    rw [List.append_assoc] at hanswer
    exact hanswer

/-- A builder succeeds exactly when it adds fewer entities than there are ids, whatever calls come in
between.  Then the entities of its scene are those that were added, in their order; the ids count from
one and are all different; an addition answers the number of its entity; and a lookup finds the entity
that its id counts, and nothing beyond the last one. -/
theorem builder_numbers_entities (calls : List Call) :
    ((start.run calls).isSome ↔ (added calls).length < 2 ^ 32 - 1) ∧
    ∀ answers builder, start.run calls = some (answers, builder) →
      builder.scene.entities.map (fun e => (e.shape, e.material)) = added calls ∧
      builder.scene.entities.map (·.id.toNat) = List.range' 1 (added calls).length ∧
      (builder.scene.entities.map (·.id)).Nodup ∧ (∀ e ∈ builder.scene.entities, e.id.toNat ≠ 0) ∧
      (∀ id, builder.scene.entity? id = builder.scene.entities[id.toNat - 1]?) ∧
      (∀ pre shape material post, calls = pre ++ .push shape material :: post →
        ∃ id : EntityId, answers[pre.length]? = some (some id) ∧
          id.toNat = (added pre).length + 1) ∧
      builder.scene.camera = (calls.filterMap Call.camera?).getLast?.getD .standard ∧
      builder.scene.air = (calls.filterMap Call.air?).getLast?.getD .plain := by
  refine ⟨?_, fun answers builder hrun => ?_⟩
  · rw [received_start.isSome_run, List.nil_append]
    omega
  · have hlast := received_start.run hrun
    rw [List.nil_append] at hlast
    refine ⟨hlast.entities.parts, hlast.entities.ids, hlast.entities.nodup,
      fun e _ => e.id.toNat_pos.ne', hlast.entities.entity?_eq, ?_, hlast.camera, hlast.air⟩
    rintro pre shape material post rfl
    exact received_start.answer_push hrun

/-- Two entities, and a camera in between. -/
theorem builder_numbers_entities_pair :
    ∃ answers builder, start.run [.push (.sphere 1.0) .plain, .camera .standard,
        .entity (.sphere 2.0) .plain] = some (answers, builder) ∧
      builder.scene.entities.map (·.id.toNat) = [1, 2] := by
  have hpair := builder_numbers_entities
    [.push (.sphere 1.0) .plain, .camera .standard, .entity (.sphere 2.0) .plain]
  obtain ⟨⟨answers, builder⟩, hrun⟩ := Option.isSome_iff_exists.1 (hpair.1.2 (by decide))
  exact ⟨answers, builder, hrun, (hpair.2 answers builder hrun).2.1⟩

/-- The last id is not handed out: as many additions as there are ids do not all succeed. -/
theorem not_every_id_handed_out : ¬ ∀ calls : List Call, (added calls).length ≤ 2 ^ 32 - 1 →
    (start.run calls).isSome := by
  intro h
  have hcount (n : ℕ) : (added (List.replicate n (.push (.sphere 1.0) .plain))).length = n := by
    have hadded : Call.added? (.push (.sphere 1.0) .plain) = some (.sphere 1.0, .plain) := rfl
    rw [added, List.filterMap_replicate_of_some hadded, List.length_replicate]
  have hrun := h _ (hcount (2 ^ 32 - 1)).le
  rw [received_start.isSome_run, List.nil_append, hcount] at hrun
  exact absurd hrun (by decide)

end SceneBuilder

end SphereTracer
