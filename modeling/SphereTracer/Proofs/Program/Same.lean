import Mathlib.Data.List.Perm.Basic
import SphereTracer.Proofs.Program.Checked
import SphereTracer.Proofs.Scene.Built

/-!
# The same program in two arenas

Roots that stand for the same trees are put in orders that correspond, and one arena refuses them
exactly if the other does.  Entities that are listed differently come out in the same order.
-/

namespace SphereTracer

open List (Forall₂)

variable {arena arena' : Arena}

/-! ## One procedure -/

namespace Program

theorem checkScope_congr {order order' : Array Handle} (procedure : ProcedureName)
    (h : Forall₂ (arena.Same arena') order.toList order'.toList) :
    checkScope arena.nodes procedure order = checkScope arena'.nodes procedure order' := by
  have hmap : order.toList.map (varOf arena.nodes) = order'.toList.map (varOf arena'.nodes) :=
    Arena.map_eq_of_same Denotes.varOf_eq Denotes.varOf_eq h
  have hvars : order.toList.filterMap (varOf arena.nodes) =
      order'.toList.filterMap (varOf arena'.nodes) := by
    have hfilter := congrArg (List.filterMap id) hmap
    rw [List.filterMap_map, List.filterMap_map] at hfilter
    exact hfilter
  rw [checkScope, checkScope, hvars]

theorem arrange_alike (hw : arena.WellFormed) (hw' : arena'.WellFormed) {procedure : ProcedureName}
    {roots roots' : List Handle} (hroots : Forall₂ (arena.Same arena') roots roots')
    {order : Array Handle} (h : arrange arena.nodes procedure roots = .ok order) :
    ∃ order', arrange arena'.nodes procedure roots' = .ok order' ∧
      Forall₂ (arena.Same arena') order.toList order'.toList := by
  obtain ⟨hflatten, hscope⟩ := arrange_eq_ok_iff.1 h
  obtain ⟨order', hflatten', horder⟩ := flatten_alike (hw.alike hw') hroots hflatten
  refine ⟨order', arrange_eq_ok_iff.2 ⟨hflatten', ?_⟩, horder⟩
  rw [← checkScope_congr procedure horder]
  exact hscope

end Program

/-! ## One entity -/

/-- Roots of one entity in two arenas. -/
structure EntityRoots.Same (arena arena' : Arena) (roots roots' : EntityRoots) : Prop where
  id : roots.id = roots'.id
  distance : arena.Same arena' roots.distance roots'.distance
  material : Forall₂ (arena.Same arena') roots.material.toList roots'.material.toList

/-- Programs of one entity in two arenas. -/
structure EntityProgram.Same (arena arena' : Arena) (e e' : EntityProgram) : Prop extends
    EntityRoots.Same arena arena' e.toEntityRoots e'.toEntityRoots where
  distanceOrder : Forall₂ (arena.Same arena') e.distanceOrder.toList e'.distanceOrder.toList
  materialOrder : Forall₂ (arena.Same arena') e.materialOrder.toList e'.materialOrder.toList

theorem EntityTrees.Describes.same {roots roots' : EntityRoots} {trees : EntityTrees}
    (h : Describes (Denotes arena.nodes) roots trees)
    (h' : Describes (Denotes arena'.nodes) roots' trees) : roots.Same arena arena' roots' where
  id := h.id.trans h'.id.symm
  distance := ⟨trees.distance, h.distance, h'.distance⟩
  material := forall₂_join h.material h'.material fun _ _ t ha hb => ⟨t, ha, hb⟩

theorem Program.ofEntity_alike (hw : arena.WellFormed) (hw' : arena'.WellFormed)
    {roots roots' : EntityRoots} (hroots : roots.Same arena arena' roots') {e : EntityProgram}
    (h : ofEntity arena.nodes roots = .ok e) :
    ∃ e', ofEntity arena'.nodes roots' = .ok e' ∧ e.Same arena arena' e' := by
  obtain ⟨hdistance, hmaterial, rfl⟩ := ofEntity_eq_ok_iff.1 h
  obtain ⟨distanceOrder, hdistance', hsameDistance⟩ :=
    arrange_alike hw hw' (.cons hroots.distance .nil) hdistance
  obtain ⟨materialOrder, hmaterial', hsameMaterial⟩ :=
    arrange_alike hw hw' hroots.material hmaterial
  rw [hroots.id] at hdistance' hmaterial'
  refine ⟨⟨roots', distanceOrder, materialOrder⟩, ?_, hroots, hsameDistance, hsameMaterial⟩
  exact ofEntity_eq_ok_iff.2 ⟨hdistance', hmaterial', rfl⟩

/-! ## All entities -/

section
variable {reading : Reading} {entities : List EntityRoots} {trees : List EntityTrees}

theorem EntityTrees.map_id_eq (h : Forall₂ (EntityTrees.Describes reading) entities trees) :
    entities.map (·.id) = trees.map (·.id) :=
  map_eq_of_forall₂ (fun _ _ he => he.id) h

theorem EntityTrees.exists_inOrder (h : Forall₂ (EntityTrees.Describes reading) entities trees) :
    ∃ sorted : List EntityTrees, sorted.Perm trees ∧
      (sorted.Pairwise fun a b => a.id.raw ≤ b.id.raw) ∧
      Forall₂ (EntityTrees.Describes reading) (Program.inOrder entities) sorted := by
  obtain ⟨sorted, hsorted, hperm⟩ := List.perm_comp_forall₂ (Program.inOrder_perm entities) h
  have hle : ((Program.inOrder entities).map (·.id)).Pairwise fun a b => a.raw ≤ b.raw := by
    rw [List.pairwise_map]
    exact Program.pairwise_inOrder entities
  rw [map_id_eq hsorted, List.pairwise_map] at hle
  exact ⟨sorted, hperm, hle, hsorted⟩

end

/-- Entities of different ids come out in the same order, however they are listed. -/
theorem EntityRoots.same_inOrder {entities entities' : List EntityRoots}
    {trees trees' : List EntityTrees} (hperm : trees'.Perm trees)
    (h : Forall₂ (EntityTrees.Describes (Denotes arena.nodes)) entities trees)
    (h' : Forall₂ (EntityTrees.Describes (Denotes arena'.nodes)) entities' trees')
    (hnodup : (entities.map (·.id)).Nodup) :
    Forall₂ (EntityRoots.Same arena arena') (Program.inOrder entities)
      (Program.inOrder entities') := by
  obtain ⟨sorted, hs, hle, hsorted⟩ := EntityTrees.exists_inOrder h
  obtain ⟨sorted', hs', hle', hsorted'⟩ := EntityTrees.exists_inOrder h'
  have hids : (sorted.map (·.id)).Nodup := by
    rw [(hs.map _).nodup_iff, ← EntityTrees.map_id_eq h]
    exact hnodup
  have hboth : sorted.Perm sorted' := hs.trans (hperm.symm.trans hs'.symm)
  -- Both lists ascend and have the same members, and no two members share an id.
  have heq : sorted = sorted' := by
    apply hboth.eq_of_pairwise _ hle hle'
    intro a b ha hb hab hba
    have hid : a.id = b.id := Program.id_eq_iff.2 (UInt32.le_antisymm hab hba)
    exact List.inj_on_of_nodup_map hids ha (hboth.mem_iff.2 hb) hid
  subst heq
  exact forall₂_join hsorted hsorted' fun _ _ _ ha hb => ha.same hb

/-! ## Scenes -/

section
variable {roots roots' : SceneRoots} {trees trees' : SceneTrees}

theorem SceneTrees.Describes.same_camera (h : Describes (Denotes arena.nodes) roots trees)
    (h' : Describes (Denotes arena'.nodes) roots' trees') (hcamera : trees'.camera = trees.camera) :
    Forall₂ (arena.Same arena') roots.camera.toList roots'.camera.toList := by
  have htrees := h'.camera
  rw [hcamera] at htrees
  exact forall₂_join h.camera htrees fun _ _ t ht ht' => ⟨t, ht, ht'⟩

theorem SceneTrees.Describes.same_air (h : Describes (Denotes arena.nodes) roots trees)
    (h' : Describes (Denotes arena'.nodes) roots' trees') (hair : trees'.air = trees.air) :
    Forall₂ (arena.Same arena') roots.air.toList roots'.air.toList := by
  have htrees := h'.air
  rw [hair] at htrees
  exact forall₂_join h.air htrees fun _ _ t ht ht' => ⟨t, ht, ht'⟩

end

/-- Programs of one scene in two arenas. -/
structure Program.Same (arena arena' : Arena) (program program' : Program) : Prop where
  nodes : program.nodes = arena.nodes
  nodes' : program'.nodes = arena'.nodes
  entities : Forall₂ (EntityProgram.Same arena arena') program.entities.toList
    program'.entities.toList
  order : Forall₂ (arena.Same arena') program.frame.order.toList program'.frame.order.toList
  camera : Forall₂ (arena.Same arena') program.frame.camera.toList program'.frame.camera.toList
  air : Forall₂ (arena.Same arena') program.frame.air.toList program'.frame.air.toList
  options : program.options = program'.options

theorem mapM_alike {α β γ δ ε : Type} {R : α → γ → Prop} {S : β → δ → Prop} {f : α → Except ε β}
    {f' : γ → Except ε δ} {l : List α} {l' : List γ} {m : List β} (hl : Forall₂ R l l')
    (h : Forall₂ (fun a b => f a = .ok b) l m)
    (hf : ∀ a b c, R a c → f a = .ok b → ∃ d, f' c = .ok d ∧ S b d) :
    ∃ m', Forall₂ (fun c d => f' c = .ok d) l' m' ∧ Forall₂ S m m' := by
  induction hl generalizing m with
  | nil =>
    cases h
    exact ⟨[], .nil, .nil⟩
  | cons hac _ ih =>
    cases h with
    | cons hb hrest =>
      obtain ⟨d, hd, hbd⟩ := hf _ _ _ hac hb
      obtain ⟨ds, hds, hbds⟩ := ih hrest
      exact ⟨d :: ds, .cons hd hds, .cons hbd hbds⟩

/-- A scene that has a program in one arena has it in any other that holds the same trees, in
whatever order its entities are listed. -/
theorem Program.ofRoots_alike (hw : arena.WellFormed) (hw' : arena'.WellFormed)
    (hholds : ∀ t, arena.Holds t ↔ arena'.Holds t) {roots roots' : SceneRoots}
    {trees trees' : SceneTrees} (hroots : trees.Describes (Denotes arena.nodes) roots)
    (hroots' : trees'.Describes (Denotes arena'.nodes) roots')
    (hperm : trees'.entities.Perm trees.entities) (hcamera : trees'.camera = trees.camera)
    (hair : trees'.air = trees.air) {options : Options Word} {program : Program}
    (h : ofRoots arena.nodes roots options = .ok program) :
    ∃ program', ofRoots arena'.nodes roots' options = .ok program' ∧
      program.Same arena arena' program' := by
  obtain ⟨hnames, hnodup, hentities, hframe, hnodes, hc, ha, hoptions⟩ := ofRoots_eq_ok_iff.1 h
  have hsorted := EntityRoots.same_inOrder hperm hroots.entities hroots'.entities hnodup
  obtain ⟨entities', hentities', hsame⟩ :=
    mapM_alike hsorted hentities fun _ _ _ hr he => ofEntity_alike hw hw' hr he
  have hsameCamera := hroots.same_camera hroots' hcamera
  have hsameAir := hroots.same_air hroots' hair
  obtain ⟨order', hframe', horder⟩ :=
    arrange_alike hw hw' (List.rel_append hsameCamera hsameAir) hframe
  refine ⟨⟨arena'.nodes, entities'.toArray, ⟨order', roots'.camera, roots'.air⟩, options⟩, ?_, ?_⟩
  · apply ofRoots_eq_ok_iff.2
    refine ⟨?_, ?_, hentities', hframe', rfl, rfl, rfl, rfl⟩
    · rw [checkNames_nodes_iff hw']
      exact ((checkNames_nodes_iff hw).1 hnames).congr hholds
    · rw [EntityTrees.map_id_eq hroots'.entities, (hperm.map _).nodup_iff,
        ← EntityTrees.map_id_eq hroots.entities]
      exact hnodup
  · rw [← hc] at hsameCamera
    rw [← ha] at hsameAir
    exact ⟨hnodes, rfl, hsame, horder, hsameCamera, hsameAir, hoptions⟩

end SphereTracer
