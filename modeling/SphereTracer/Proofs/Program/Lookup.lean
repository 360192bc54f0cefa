import SphereTracer.Proofs.Program.Checked

/-!
# Looking entities up

Among entities by ascending id, halving finds the entity of an id if there is one.
-/

namespace SphereTracer

namespace Program

/-- The ids ascend, so that each occurs once. -/
def Ascending (entities : Array EntityProgram) : Prop :=
  entities.toList.Pairwise fun a b => a.id.raw < b.id.raw

variable {entities : Array EntityProgram} {id : UInt32}

theorem Ascending.lt (h : Ascending entities) {i j : Nat} {a b : EntityProgram}
    (ha : entities[i]? = some a) (hb : entities[j]? = some b) (hij : i < j) :
    a.id.raw < b.id.raw := by
  obtain ⟨hi, rfl⟩ := Array.getElem?_eq_some_iff.1 ha
  obtain ⟨hj, rfl⟩ := Array.getElem?_eq_some_iff.1 hb
  exact List.pairwise_iff_getElem.1 h i j hi hj hij

theorem Ascending.index_lt (h : Ascending entities) {i j : Nat} {a b : EntityProgram}
    (ha : entities[i]? = some a) (hb : entities[j]? = some b) (hlt : a.id.raw < b.id.raw) :
    i < j := by
  rcases Nat.lt_trichotomy i j with hij | rfl | hji
  · exact hij
  · cases ha.symm.trans hb
    exact absurd hlt (UInt32.lt_irrefl _)
  · exact absurd (UInt32.lt_trans hlt (h.lt hb ha hji)) (UInt32.lt_irrefl _)

theorem Ascending.index_eq (h : Ascending entities) {i j : Nat} {a b : EntityProgram}
    (ha : entities[i]? = some a) (hb : entities[j]? = some b) (heq : a.id.raw = b.id.raw) :
    i = j := by
  rcases Nat.lt_trichotomy i j with hij | hij | hji
  · exact absurd (h.lt ha hb hij) (heq ▸ UInt32.lt_irrefl _)
  · exact hij
  · exact absurd (h.lt hb ha hji) (heq ▸ UInt32.lt_irrefl _)

/-- Between two places, the entity of the id is found. -/
theorem search_eq_some_iff (h : Ascending entities) {low high : Nat} (hhigh : high ≤ entities.size)
    {e : EntityProgram} : search entities id low high = some e ↔
      ∃ i, low ≤ i ∧ i < high ∧ entities[i]? = some e ∧ e.id.raw = id := by
  -- The range that is left shrinks; what it loses has ids on the wrong side of `id`.
  induction hn : high - low using Nat.strongRecOn generalizing low high with
  | ind n ih =>
    rw [search]
    by_cases hlt : low < high
    · rw [if_pos hlt]
      have hmiddle : (low + high) / 2 < entities.size := by omega
      have hm := Array.getElem?_eq_getElem hmiddle
      generalize hm' : entities[(low + high) / 2] = m at hm
      simp only [hm]
      by_cases hfound : m.id.raw = id
      · rw [if_pos hfound]
        constructor
        · rintro ⟨⟩
          exact ⟨_, by omega, by omega, hm, hfound⟩
        · rintro ⟨i, -, -, he, hid⟩
          cases h.index_eq hm he (hfound.trans hid.symm)
          exact hm.symm.trans he
      · rw [if_neg hfound]
        by_cases hbelow : m.id.raw < id
        · rw [if_pos hbelow, ih _ (by omega) hhigh rfl]
          constructor
          · rintro ⟨i, hlow, hi⟩
            exact ⟨i, by omega, hi⟩
          · rintro ⟨i, -, hi, he, hid⟩
            have hafter := h.index_lt hm he (hid ▸ hbelow)
            exact ⟨i, hafter, hi, he, hid⟩
        · rw [if_neg hbelow, ih _ (by omega) (by omega) rfl]
          constructor
          · rintro ⟨i, hlow, hi, he⟩
            exact ⟨i, hlow, by omega, he⟩
          · rintro ⟨i, hlow, -, he, hid⟩
            have habove : e.id.raw < m.id.raw := by
              rw [hid]
              exact UInt32.lt_of_le_of_ne (UInt32.not_lt.1 hbelow) (Ne.symm hfound)
            exact ⟨i, hlow, h.index_lt he hm habove, he, hid⟩
    · rw [if_neg hlt]
      simp only [reduceCtorEq, false_iff, not_exists]
      omega

theorem entity?_eq_some_iff {program : Program} (h : Ascending program.entities)
    {e : EntityProgram} : program.entity? id = some e ↔ e ∈ program.entities ∧ e.id.raw = id := by
  rw [entity?, search_eq_some_iff h (Nat.le_refl _), Array.mem_iff_getElem?]
  constructor
  · rintro ⟨i, -, -, he, hid⟩
    exact ⟨⟨i, he⟩, hid⟩
  · rintro ⟨⟨i, he⟩, hid⟩
    exact ⟨i, Nat.zero_le _, (Array.getElem?_eq_some_iff.1 he).1, he, hid⟩

theorem ascending_of_ofRoots {nodes : Array Node} {roots : SceneRoots} {options : Options Word}
    {program : Program} (h : ofRoots nodes roots options = .ok program) :
    Ascending program.entities := by
  obtain ⟨-, hnodup, hentities, -⟩ := ofRoots_eq_ok_iff.1 h
  rw [← pairwise_lt_inOrder_iff] at hnodup
  have hids : (inOrder roots.entities).map (·.id.raw) = program.entities.toList.map (·.id.raw) := by
    refine map_eq_of_forall₂ (fun r e he => ?_) hentities
    rw [← (ofEntity_eq_ok_iff.1 he).2.2]
  have hlt : ((inOrder roots.entities).map (·.id.raw)).Pairwise (· < ·) := List.pairwise_map.2 hnodup
  rw [hids, List.pairwise_map] at hlt
  exact hlt

end Program

end SphereTracer
