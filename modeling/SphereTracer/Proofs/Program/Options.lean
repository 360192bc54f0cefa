import SphereTracer.Proofs.Program.Checked

/-!
# Options in their ranges

The options of a program have passed all checks, so that whoever has a program may rely on their
ranges.
-/

namespace SphereTracer.Options

/-- Every option is in its range. -/
structure InRange (o : Options Word) : Prop where
  epsilon : o.epsilon.isFinite ∧ 0.0 < o.epsilon.toFloat
  normalEpsilon : o.normalEpsilon.isFinite ∧ 0.0 < o.normalEpsilon.toFloat
  gamma : o.gamma.isFinite ∧ 0.0 < o.gamma.toFloat
  steps : o.steps ≠ 0 ∧ o.steps ≤ maxCount
  bounces : o.bounces ≠ 0 ∧ o.bounces ≤ maxCount
  iterations : o.iterations ≠ 0 ∧ o.iterations ≤ maxCount
  stepFactor : 0.0 < o.stepFactor.toFloat ∧ o.stepFactor.toFloat ≤ 1.0
  memory : 0.0 ≤ o.memory.toFloat ∧ o.memory.toFloat ≤ 1.0

theorem checkPositive_eq_ok_iff {name : String} {w : Word} :
    checkPositive name w = .ok () ↔ w.isFinite ∧ 0.0 < w.toFloat := by
  rw [checkPositive]
  split
  · next h => simpa using h
  · next h => simpa using h

theorem checkCount_eq_ok_iff {name : String} {n : UInt32} :
    checkCount name n = .ok () ↔ n ≠ 0 ∧ n ≤ maxCount := by
  rw [checkCount, ← UInt32.not_lt]
  split
  · simp_all
  · split <;> simp_all

/-- A check that something else follows. -/
theorem check_then_eq_ok_iff {ε : Type} {check next : Except ε Unit} :
    (do check; next) = .ok () ↔ check = .ok () ∧ next = .ok () :=
  bind_eq_ok_iff.trans ⟨fun ⟨_, h⟩ => h, fun h => ⟨(), h⟩⟩

section
variable {ε : Type} {condition : Bool} {e : ε}

/-- Nothing but a condition is checked. -/
theorem require_eq_ok_iff :
    (do
      if !condition then
        throw e : Except ε Unit) = .ok () ↔ condition = true := by
  cases condition with
  | false => exact ⟨nofun, nofun⟩
  | true => exact ⟨fun _ => rfl, fun _ => rfl⟩

theorem require_then_eq_ok_iff {next : Except ε Unit} :
    (do
      if !condition then
        throw e
      next : Except ε Unit) = .ok () ↔ condition = true ∧ next = .ok () := by
  cases condition with
  | false => exact ⟨nofun, fun h => nomatch h.1⟩
  | true => exact ⟨fun h => ⟨rfl, h⟩, fun h => h.2⟩

end

/-- The options that pass are those in their ranges. -/
theorem validate_eq_ok_iff {o : Options Word} : o.validate = .ok () ↔ o.InRange := by
  rw [validate, check_then_eq_ok_iff, check_then_eq_ok_iff, check_then_eq_ok_iff,
    check_then_eq_ok_iff, check_then_eq_ok_iff, check_then_eq_ok_iff, require_then_eq_ok_iff,
    require_eq_ok_iff,
    checkPositive_eq_ok_iff, checkPositive_eq_ok_iff, checkPositive_eq_ok_iff,
    checkCount_eq_ok_iff, checkCount_eq_ok_iff, checkCount_eq_ok_iff]
  simp only [Bool.and_eq_true, decide_eq_true_iff]
  constructor
  · rintro ⟨hepsilon, hnormal, hgamma, hsteps, hbounces, hiterations, hfactor, hmemory⟩
    exact ⟨hepsilon, hnormal, hgamma, hsteps, hbounces, hiterations, hfactor, hmemory⟩
  · rintro ⟨hepsilon, hnormal, hgamma, hsteps, hbounces, hiterations, hfactor, hmemory⟩
    exact ⟨hepsilon, hnormal, hgamma, hsteps, hbounces, hiterations, hfactor, hmemory⟩

end SphereTracer.Options
