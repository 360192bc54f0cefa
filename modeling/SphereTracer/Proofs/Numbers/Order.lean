import Mathlib
import SphereTracer.Binary32

/-!
# The order of binary32 numbers

Numbers that are not NaN have a rank in a linear order, and comparing them is comparing their ranks.
With NaN every comparison is false.
-/

namespace SphereTracer

open Float.Model

/-- Where a number stands on the line: its part of the line, and within that first its exponent. -/
def rankUnpacked? : UnpackedFloat → Option (ℤ ×ₗ ℤ ×ₗ ℤ)
  | .notANumber => none
  | .infinity .negative => some (toLex (-2, toLex (0, 0)))
  | .finite .negative m e _ => some (toLex (-1, toLex (-e, -m)))
  | .zero _ => some (toLex (0, toLex (0, 0)))
  | .finite .positive m e _ => some (toLex (1, toLex (e, m)))
  | .infinity .positive => some (toLex (2, toLex (0, 0)))

theorem compare_toLex {α β : Type} [LinearOrder α] [LinearOrder β] (a b : α) (x y : β) :
    compare (toLex (a, x)) (toLex (b, y)) = (compare a b).then (compare x y) := by
  rw [Prod.Lex.compare_def]
  rfl

theorem compare_neg_neg (a b : ℤ) : compare (-a) (-b) = (compare a b).swap := by
  rcases lt_trichotomy a b with h | rfl | h
  · rw [compare_lt_iff_lt.2 h, compare_gt_iff_gt.2 (neg_lt_neg h)]
    rfl
  · rw [compare_eq_iff_eq.2 rfl, compare_eq_iff_eq.2 rfl]
    rfl
  · rw [compare_gt_iff_gt.2 h, compare_lt_iff_lt.2 (neg_lt_neg h)]
    rfl

theorem compare_natCast (m n : ℕ) : compare (m : ℤ) n = compare m n := by
  rcases lt_trichotomy m n with h | rfl | h
  · rw [compare_lt_iff_lt.2 h, compare_lt_iff_lt.2 (Int.ofNat_lt.2 h)]
  · rw [compare_eq_iff_eq.2 rfl, compare_eq_iff_eq.2 rfl]
  · rw [compare_gt_iff_gt.2 h, compare_gt_iff_gt.2 (Int.ofNat_lt.2 h)]

theorem compare_unpacked (x y : UnpackedFloat) : x.compare y =
    (rankUnpacked? x).bind fun a => (rankUnpacked? y).map fun b => compare a b := by
  rcases x with (_ | _) | _ | _ | ⟨_ | _, m, e, hm⟩ <;>
    rcases y with (_ | _) | _ | _ | ⟨_ | _, m', e', hm'⟩ <;>
    first
    | rfl
    | simp [UnpackedFloat.compare, rankUnpacked?, compare_toLex, compare_neg_neg,
        compare_natCast, Ordering.swap_then]

namespace Binary32

variable {x y z : Float32}

def rank? (x : Float32) : Option (ℤ ×ₗ ℤ ×ₗ ℤ) := rankUnpacked? x.toModel.unpack

theorem isNaN_iff : x.isNaN ↔ rank? x = none := by
  change x.toModel.unpack.isNaN ↔ rankUnpacked? x.toModel.unpack = none
  rcases x.toModel.unpack with (_ | _) | _ | _ | ⟨_ | _, m, e, hm⟩ <;>
    simp [UnpackedFloat.isNaN, rankUnpacked?]

theorem exists_rank (hx : ¬ x.isNaN) : ∃ a, rank? x = some a := by
  rw [isNaN_iff] at hx
  exact Option.ne_none_iff_exists'.1 hx

theorem compare_eq_some_iff {o : Ordering} : x.toModel.unpack.compare y.toModel.unpack = some o ↔
    ∃ a b, rank? x = some a ∧ rank? y = some b ∧ compare a b = o := by
  rw [compare_unpacked]
  simp [rank?, Option.bind_eq_some_iff]

theorem lt_iff : x < y ↔ ∃ a b, rank? x = some a ∧ rank? y = some b ∧ a < b := by
  have hlt : x < y ↔ x.toModel.unpack.compare y.toModel.unpack = some .lt := by
    change decide (x.toModel < y.toModel) = true ↔ _
    rw [decide_eq_true_iff]
    exact beq_iff_eq
  simp only [hlt, compare_eq_some_iff, compare_lt_iff_lt]

theorem le_iff : x ≤ y ↔ ∃ a b, rank? x = some a ∧ rank? y = some b ∧ a ≤ b := by
  have hle : x ≤ y ↔ ∃ o, x.toModel.unpack.compare y.toModel.unpack = some o ∧ o.isLE := by
    change decide (x.toModel ≤ y.toModel) = true ↔ _
    rw [decide_eq_true_iff]
    exact Option.any_eq_true _ _
  simp only [hle, compare_eq_some_iff, Ordering.isLE_iff_ne_gt, ← compare_le_iff_le]
  constructor
  · rintro ⟨_, ⟨a, b, ha, hb, rfl⟩, hab⟩
    exact ⟨a, b, ha, hb, hab⟩
  · rintro ⟨a, b, ha, hb, hab⟩
    exact ⟨_, ⟨a, b, ha, hb, rfl⟩, hab⟩

theorem beq_iff : (x == y) = true ↔ ∃ a, rank? x = some a ∧ rank? y = some a := by
  have heq : (x == y) = true ↔ x.toModel.unpack.compare y.toModel.unpack = some .eq := by
    change (x.toModel.unpack.compare y.toModel.unpack == some .eq) = true ↔ _
    exact beq_iff_eq
  simp only [heq, compare_eq_some_iff, compare_eq_iff_eq]
  constructor
  · rintro ⟨a, _, ha, hb, rfl⟩
    exact ⟨a, ha, hb⟩
  · rintro ⟨a, ha, hb⟩
    exact ⟨a, a, ha, hb, rfl⟩

theorem not_isNaN_of_lt (h : x < y) : ¬ x.isNaN ∧ ¬ y.isNaN := by
  obtain ⟨a, b, ha, hb, -⟩ := lt_iff.1 h
  rw [isNaN_iff, isNaN_iff, ha, hb]
  exact ⟨Option.some_ne_none a, Option.some_ne_none b⟩

theorem lt_irrefl (x : Float32) : ¬ x < x := by
  rw [lt_iff]
  rintro ⟨a, b, ha, hb, hab⟩
  cases ha.symm.trans hb
  exact hab.false

theorem lt_trans (h : x < y) (h' : y < z) : x < z := by
  obtain ⟨a, b, ha, hb, hab⟩ := lt_iff.1 h
  obtain ⟨b', c, hb', hc, hbc⟩ := lt_iff.1 h'
  cases hb.symm.trans hb'
  exact lt_iff.2 ⟨a, c, ha, hc, hab.trans hbc⟩

theorem le_of_lt (h : x < y) : x ≤ y := by
  obtain ⟨a, b, ha, hb, hab⟩ := lt_iff.1 h
  exact le_iff.2 ⟨a, b, ha, hb, hab.le⟩

theorem le_trans (h : x ≤ y) (h' : y ≤ z) : x ≤ z := by
  obtain ⟨a, b, ha, hb, hab⟩ := le_iff.1 h
  obtain ⟨b', c, hb', hc, hbc⟩ := le_iff.1 h'
  cases hb.symm.trans hb'
  exact le_iff.2 ⟨a, c, ha, hc, hab.trans hbc⟩

theorem lt_of_le_of_lt (h : x ≤ y) (h' : y < z) : x < z := by
  obtain ⟨a, b, ha, hb, hab⟩ := le_iff.1 h
  obtain ⟨b', c, hb', hc, hbc⟩ := lt_iff.1 h'
  cases hb.symm.trans hb'
  exact lt_iff.2 ⟨a, c, ha, hc, hab.trans_lt hbc⟩

theorem not_lt_of_le (h : x ≤ y) : ¬ y < x := by
  intro hlt
  obtain ⟨a, b, ha, hb, hab⟩ := le_iff.1 h
  obtain ⟨b', a', hb', ha', hba⟩ := lt_iff.1 hlt
  cases ha.symm.trans ha'
  cases hb.symm.trans hb'
  exact (hab.trans_lt hba).false

theorem lt_of_beq_of_lt (h : (x == y) = true) (h' : y < z) : x < z := by
  obtain ⟨a, ha, hb⟩ := beq_iff.1 h
  obtain ⟨b, c, hb', hc, hbc⟩ := lt_iff.1 h'
  cases hb.symm.trans hb'
  exact lt_iff.2 ⟨a, c, ha, hc, hbc⟩

theorem le_of_not_lt (hx : ¬ x.isNaN) (hy : ¬ y.isNaN) (h : ¬ x < y) : y ≤ x := by
  obtain ⟨a, ha⟩ := exists_rank hx
  obtain ⟨b, hb⟩ := exists_rank hy
  refine le_iff.2 ⟨b, a, hb, ha, not_lt.1 fun hab => h (lt_iff.2 ⟨a, b, ha, hb, hab⟩)⟩

theorem beq_of_le_of_le (h : x ≤ y) (h' : y ≤ x) : (x == y) = true := by
  obtain ⟨a, b, ha, hb, hab⟩ := le_iff.1 h
  obtain ⟨b', a', hb', ha', hba⟩ := le_iff.1 h'
  cases ha.symm.trans ha'
  cases hb.symm.trans hb'
  cases hab.antisymm hba
  exact beq_iff.2 ⟨a, ha, hb⟩

end Binary32

end SphereTracer
