import Mathlib
import SphereTracer.Trace.Worker

/-!
# The first event of a ray

A march samples its ray at points that follow from the answers it gets.  At a sample it looks for the
end of the free path when it arrives there, and for a surface when it is about to leave; it ends with
the first of these events, or else with its steps.
-/

namespace SphereTracer

variable {S σ : Type}

/-- Where a march is, how far it has come, and who answers its next question. -/
structure Sample (S σ : Type) where
  point : Vec3 S
  travelled : S
  oracle : σ

section
variable [Scalar S] (ask : σ → Vec3 S → Closest S × σ) (options : Options S) (ray : Ray S)

namespace Sample

def nearest (s : Sample S σ) : Closest S := (ask s.oracle s.point).1

/-- A surface is so near that the march ends. -/
def Near (s : Sample S σ) : Prop := Scalar.lt (s.nearest ask).distance options.epsilon

/-- The free path is positive and has ended. -/
def Over (s : Sample S σ) : Prop := Scalar.lt 0.0 ray.scatter ∧ Scalar.le ray.scatter s.travelled

def next (s : Sample S σ) : Sample S σ :=
  let travelled := s.travelled + (s.nearest ask).distance * options.stepFactor
  ⟨ray.along travelled, travelled, (ask s.oracle s.point).2⟩

end Sample

/-- The sample after `k` steps from the origin. -/
def Ray.sample (oracle : σ) (k : ℕ) : Sample S σ :=
  (Sample.next ask options ray)^[k] ⟨ray.origin, 0.0, oracle⟩

/-- The free path has ended at sample `k`, and there was no surface before. -/
def ScattersAt (sample : ℕ → Sample S σ) (n k : ℕ) : Prop :=
  1 ≤ k ∧ k ≤ n ∧ (sample k).Over ray ∧ ∀ j < k, ¬ (sample j).Near ask options

/-- The first surface is at sample `k`, and the free path has not ended up to there. -/
def HitsAt (sample : ℕ → Sample S σ) (n k : ℕ) : Prop :=
  k < n ∧ (sample k).Near ask options ∧ (∀ j < k, ¬ (sample j).Near ask options) ∧
    ∀ j, 1 ≤ j → j ≤ k → ¬ (sample j).Over ray

/-- Neither event is at any sample. -/
def Quiet (sample : ℕ → Sample S σ) (n : ℕ) : Prop :=
  (∀ j < n, ¬ (sample j).Near ask options) ∧ ∀ j, 1 ≤ j → j ≤ n → ¬ (sample j).Over ray

/-- The end of a march of at most `n` steps tells the first event. -/
structure FirstEvent (sample : ℕ → Sample S σ) (n : ℕ) (ending : March S) : Prop where
  scattered : ending = .scattered ↔ ∃ k, ScattersAt ask options ray sample n k
  hit : ∀ nearest point, ending = .hit nearest point ↔
    ∃ k, HitsAt ask options ray sample n k ∧ nearest = (sample k).nearest ask ∧
      point = (sample k).point
  escaped : ending = .escaped ↔ Quiet ask options ray sample n

end

section
variable [Scalar S] {ask : σ → Vec3 S → Closest S × σ} {options : Options S} {ray : Ray S}
  {sample : ℕ → Sample S σ} {n k : ℕ}

/-! ## At most one event is the first -/

theorem ScattersAt.not_hitsAt (h : ScattersAt ask options ray sample n k) {k' : ℕ} :
    ¬ HitsAt ask options ray sample n k' := by
  obtain ⟨hpos, -, hover, hclear⟩ := h
  rintro ⟨-, hnear, -, hgoing⟩
  by_cases hle : k ≤ k'
  · exact hgoing k hpos hle hover
  · exact hclear k' (by omega) hnear

theorem HitsAt.unique (h : HitsAt ask options ray sample n k) {k' : ℕ}
    (h' : HitsAt ask options ray sample n k') : k = k' := by
  obtain ⟨-, hnear, hfirst, -⟩ := h
  obtain ⟨-, hnear', hfirst', -⟩ := h'
  by_contra hne
  by_cases hlt : k < k'
  · exact hfirst' k hlt hnear
  · exact hfirst k' (by omega) hnear'

theorem ScattersAt.not_quiet (h : ScattersAt ask options ray sample n k) :
    ¬ Quiet ask options ray sample n := by
  obtain ⟨hpos, hle, hover, -⟩ := h
  exact fun hquiet => hquiet.2 k hpos hle hover

theorem HitsAt.not_quiet (h : HitsAt ask options ray sample n k) :
    ¬ Quiet ask options ray sample n := by
  obtain ⟨hlt, hnear, -⟩ := h
  exact fun hquiet => hquiet.1 k hlt hnear

namespace FirstEvent

theorem of_scattersAt (h : ScattersAt ask options ray sample n k) :
    FirstEvent ask options ray sample n .scattered where
  scattered := iff_of_true rfl ⟨k, h⟩
  hit _ _ := iff_of_false nofun fun ⟨_, hhit, _⟩ => h.not_hitsAt hhit
  escaped := iff_of_false nofun h.not_quiet

theorem of_hitsAt (h : HitsAt ask options ray sample n k) :
    FirstEvent ask options ray sample n (.hit ((sample k).nearest ask) (sample k).point) where
  scattered := iff_of_false nofun fun ⟨_, hscatters⟩ => hscatters.not_hitsAt h
  hit nearest point := by
    constructor
    · intro heq
      cases heq
      exact ⟨k, h, rfl, rfl⟩
    · rintro ⟨k', hhit, rfl, rfl⟩
      rw [h.unique hhit]
  escaped := iff_of_false nofun h.not_quiet

theorem of_quiet (h : Quiet ask options ray sample n) :
    FirstEvent ask options ray sample n .escaped where
  scattered := iff_of_false nofun fun ⟨_, hscatters⟩ => hscatters.not_quiet h
  hit _ _ := iff_of_false nofun fun ⟨_, hhit, _⟩ => hhit.not_quiet h
  escaped := iff_of_true rfl h

end FirstEvent

/-! ## One step

With no event at the first step, the first event is the first one behind it. -/

section
variable (hnear : ¬ (sample 0).Near ask options) (hover : ¬ (sample 1).Over ray)

include hnear in
theorem not_near_of_behind (h : ∀ j < n, ¬ (sample (j + 1)).Near ask options) :
    ∀ j < n + 1, ¬ (sample j).Near ask options := by
  intro j hj
  cases j with
  | zero => exact hnear
  | succ j => exact h j (by omega)

include hover in
theorem not_over_of_behind (h : ∀ j, 1 ≤ j → j ≤ n → ¬ (sample (j + 1)).Over ray) :
    ∀ j, 1 ≤ j → j ≤ n + 1 → ¬ (sample j).Over ray := by
  intro j hpos hle
  by_cases hone : j = 1
  · rw [hone]
    exact hover
  · have hbehind := h (j - 1) (by omega) (by omega)
    rwa [Nat.sub_add_cancel hpos] at hbehind

include hnear hover

theorem FirstEvent.of_behind {ending : March S}
    (h : FirstEvent ask options ray (fun j => sample (j + 1)) n ending) :
    FirstEvent ask options ray sample (n + 1) ending := by
  cases ending with
  | scattered =>
    obtain ⟨k, -, hle, hend, hclear⟩ := h.scattered.1 rfl
    exact .of_scattersAt (k := k + 1)
      ⟨by omega, by omega, hend, not_near_of_behind hnear hclear⟩
  | hit nearest point =>
    obtain ⟨k, ⟨hlt, hhit, hclear, hgoing⟩, rfl, rfl⟩ := (h.hit nearest point).1 rfl
    exact .of_hitsAt (k := k + 1)
      ⟨by omega, hhit, not_near_of_behind hnear hclear, not_over_of_behind hover hgoing⟩
  | escaped =>
    obtain ⟨hclear, hgoing⟩ := h.escaped.1 rfl
    exact .of_quiet ⟨not_near_of_behind hnear hclear, not_over_of_behind hover hgoing⟩

end

/-! ## Marches -/

/-- A march that asks an oracle, which may change with every question. -/
def marchBy (ask : σ → Vec3 S → Closest S × σ) (options : Options S) (ray : Ray S) :
    ℕ → Sample S σ → March S
  | 0, _ => .escaped
  | n + 1, s =>
    if Scalar.lt (s.nearest ask).distance options.epsilon then .hit (s.nearest ask) s.point
    else
      let s := s.next ask options ray
      if Scalar.lt 0.0 ray.scatter && Scalar.le ray.scatter s.travelled then .scattered
      else marchBy ask options ray n s

theorem marchBy_firstEvent (n : ℕ) (s : Sample S σ) :
    FirstEvent ask options ray (fun k => (Sample.next ask options ray)^[k] s) n
      (marchBy ask options ray n s) := by
  -- Behind a step that ends nothing, the march is one from the next sample.
  induction n generalizing s with
  | zero =>
    apply FirstEvent.of_quiet
    exact ⟨nofun, fun j hpos hle => absurd (hpos.trans hle) (by decide)⟩
  | succ n ih =>
    unfold marchBy
    by_cases hnear : Scalar.lt (s.nearest ask).distance options.epsilon
    · rw [if_pos hnear]
      exact .of_hitsAt (k := 0) ⟨by omega, hnear, nofun, fun j hpos hle => by omega⟩
    · have hfar : ¬ s.Near ask options := hnear
      rw [if_neg hnear]
      dsimp only
      by_cases hover : (s.next ask options ray).Over ray
      · rw [if_pos (Bool.and_eq_true_iff.2 hover)]
        apply FirstEvent.of_scattersAt (k := 1)
        refine ⟨le_rfl, by omega, hover, fun j hj => ?_⟩
        rw [Nat.lt_one_iff.1 hj]
        exact hfar
      · rw [if_neg (mt Bool.and_eq_true_iff.1 hover)]
        exact .of_behind hfar hover (ih (s.next ask options ray))

theorem marchFrom_eq_marchBy (closest : Vec3 S → Closest S) (n : ℕ) (point : Vec3 S)
    (travelled : S) :
    (marchFrom closest options.epsilon options.stepFactor ray n point travelled).1 =
      marchBy (fun _ p => (closest p, ())) options ray n ⟨point, travelled, ()⟩ := by
  induction n generalizing point travelled with
  | zero => rfl
  | succ n ih =>
    simp only [marchFrom, marchBy, Sample.nearest, Sample.next, ← ih]
    split
    · rfl
    · split <;> rfl

theorem Interpreter.marchFrom_eq_marchBy (n : ℕ) (point : Vec3 S) (travelled : S)
    (it : Interpreter S) :
    (Interpreter.marchFrom options.epsilon options.stepFactor ray n point travelled it).1.1 =
      marchBy Interpreter.closest options ray n ⟨point, travelled, it⟩ := by
  induction n generalizing point travelled it with
  | zero => rfl
  | succ n ih =>
    simp only [Interpreter.marchFrom, marchBy, Sample.nearest, Sample.next, ← ih]
    split
    · rfl
    · split <;> rfl

/-- A march ends with the first event of its ray, for all options, all rays and whatever their free
path is: at the end of the free path if that is positive and no surface was near at a sample before,
even if one is near where it ends, and after the last step as well; at a surface if it is the first
that is near and the free path has ended neither before nor there; and with its steps otherwise.  The
samples are those that the answers lead to, of a world or of an interpreter that is asked in place. -/
theorem march_first_event (options : Options S) (ray : Ray S) :
    (∀ closest : Vec3 S → Closest S,
      let ask (_ : Unit) (p : Vec3 S) := (closest p, ())
      FirstEvent ask options ray (ray.sample ask options ()) options.steps.toNat
        (march closest options ray)) ∧
    ∀ it : Interpreter S,
      FirstEvent Interpreter.closest options ray (ray.sample Interpreter.closest options it)
        options.steps.toNat (it.march options ray).1 := by
  constructor
  · intro closest ask
    rw [march, marchFrom_eq_marchBy]
    exact marchBy_firstEvent _ _
  · intro it
    change FirstEvent _ _ _ _ _ (Interpreter.marchFrom _ _ _ _ _ _ it).1.1
    rw [Interpreter.marchFrom_eq_marchBy]
    exact marchBy_firstEvent _ _

end

end SphereTracer
