import Mathlib.Algebra.Group.Nat.Defs
import SphereTracer.Expr.Arena

/-!
# Names

A number that fits into the width is told by its hexadecimal digits, and so a node's hash by its
name.
-/

namespace SphereTracer

namespace Text

theorem hexDigit_inj : ∀ m < 16, ∀ n < 16, hexDigit m = hexDigit n → m = n := by decide

theorem hexDigits_inj {width m n : Nat} (hm : m < 16 ^ width) (hn : n < 16 ^ width)
    (h : hexDigits width m = hexDigits width n) : m = n := by
  induction width generalizing m n with
  | zero => omega
  | succ w ih =>
    rw [hexDigits, hexDigits] at h
    obtain ⟨hfront, hlast⟩ := List.append_inj' h rfl
    have hdiv : m / 16 = n / 16 := ih (by omega) (by omega) hfront
    have hmod : m % 16 = n % 16 :=
      hexDigit_inj _ (Nat.mod_lt _ (by decide)) _ (Nat.mod_lt _ (by decide))
        (List.singleton_inj.1 hlast)
    omega

end Text

/-- Nodes of one name have one hash. -/
theorem Node.hash_eq_of_name_eq {node node' : Node} (h : node.name = node'.name) :
    node.hash = node'.hash := by
  have hchars := congrArg String.toList h
  simp only [name, Text.hex, String.toList_append, String.toList_ofList] at hchars
  apply UInt64.toNat_inj.1
  exact Text.hexDigits_inj node.hash.toNat_lt node'.hash.toNat_lt (List.append_cancel_left hchars)

theorem Node.nodup_names {nodes : List Node} (h : (nodes.map Node.hash).Nodup) :
    (nodes.map Node.name).Nodup := by
  rw [List.Nodup, List.pairwise_map] at h ⊢
  exact h.imp fun hne hname => hne (Node.hash_eq_of_name_eq hname)

end SphereTracer
