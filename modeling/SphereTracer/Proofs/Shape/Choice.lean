import SphereTracer.Proofs.Numbers.Differences
import SphereTracer.Proofs.Numbers.Lengths
import SphereTracer.Proofs.Numbers.Patterns
import SphereTracer.Proofs.Shape.Computed

/-!
# Choices

A choice compares its selector with one bound after the other and takes the shape of the first bound
that is greater.  The bounds rise to one, so a selector below one finds a shape; a pseudo-random number
is such a selector, whatever it is made from.
-/

namespace SphereTracer

/-! ## The first bound -/

/-- A fold of selections from the last to the first is a search for the first. -/
theorem foldr_select {ι α : Type} (below : ι → Bool) (f : ι → α) (otherwise : α) (l : List ι) :
    l.foldr (fun i result => if below i then f i else result) otherwise =
      (l.find? below).elim otherwise f := by
  induction l with
  | nil => rfl
  | cons i rest ih =>
    rw [List.foldr_cons, List.find?_cons, ih]
    cases below i <;> rfl

section
variable {α : Type} {n : ℕ} (below : Fin n → Bool) {f : Fin n → α} {otherwise : α}

theorem foldr_select_of_first {i : Fin n} (hi : below i) (hfirst : ∀ j < i, ¬ below j) :
    (List.finRange n).foldr (fun i result => if below i then f i else result) otherwise = f i := by
  have hfind : (List.finRange n).find? below = some i := by
    rw [← Fin.find?_eq_find?_finRange, Fin.find?_eq_some_iff]
    exact ⟨hi, fun j hj => Bool.eq_false_of_not_eq_true (hfirst j hj)⟩
  rw [foldr_select, hfind, Option.elim_some]

theorem foldr_select_of_none (hnone : ∀ i, ¬ below i) :
    (List.finRange n).foldr (fun i result => if below i then f i else result) otherwise =
      otherwise := by
  have hfind : (List.finRange n).find? below = none := by
    rw [← Fin.find?_eq_find?_finRange, Fin.find?_eq_none_iff]
    exact fun i => Bool.eq_false_of_not_eq_true (hnone i)
  rw [foldr_select, hfind, Option.elim_none]

end

namespace Shape

section
variable {S : Type} [Scalar S] {bindings : Bindings S} {site : Site (Vec3 S)}
  {selector : Term Word} {n : ℕ} {shapes : Fin n → Shape Word}

theorem computed_choose_of_first {i : Fin n}
    (hi : Scalar.lt (selector.computed bindings site).x
      (Scalar.ofWord (.ofFloat (choiceBound i n))))
    (hfirst : ∀ j < i, ¬ Scalar.lt (selector.computed bindings site).x
      (Scalar.ofWord (.ofFloat (choiceBound j n)))) :
    (choose selector n shapes).computed bindings site = (shapes i).computed bindings site :=
  (computed_choose bindings site selector n shapes).trans (foldr_select_of_first _ hi hfirst)

theorem computed_choose_of_none
    (hnone : ∀ i : Fin n, ¬ Scalar.lt (selector.computed bindings site).x
      (Scalar.ofWord (.ofFloat (choiceBound i n)))) :
    (choose selector n shapes).computed bindings site = .splat (Scalar.ofWord 0.0) :=
  (computed_choose bindings site selector n shapes).trans (foldr_select_of_none _ hnone)

end

/-! ## Exact bounds -/

/-- Over the real numbers the bounds divide the unit interval evenly. -/
theorem choiceBound_real (i n : ℕ) : (choiceBound i n : ℝ) = (i + 1) / n := by
  show ((i + 1 : ℕ) : ℝ) / (n : ℝ) = _
  rw [Nat.cast_add_one]

theorem exists_part {n : ℕ} (hn : 0 < n) {x : ℝ} (hx : 0 ≤ x) (hlt : x < 1) :
    ∃ i : Fin n, (i : ℤ) = ⌊x * n⌋ ∧ (i : ℝ) / n ≤ x ∧ x < (i + 1) / n := by
  have hpos : (0 : ℝ) < n := Nat.cast_pos.2 hn
  have hfloor : 0 ≤ x * n := mul_nonneg hx hpos.le
  have hindex : ⌊x * n⌋₊ < n := (Nat.floor_lt hfloor).2 (by nlinarith)
  refine ⟨⟨⌊x * n⌋₊, hindex⟩, Int.natCast_floor_eq_floor hfloor, ?_, ?_⟩
  · rw [div_le_iff₀ hpos]
    exact Nat.floor_le hfloor
  · rw [lt_div_iff₀ hpos]
    exact Nat.lt_floor_add_one _

theorem value_choose_of_first {κ : Type} {number : κ → ℝ} {bindings : Bindings ℝ}
    {site : Site (Vec3 ℝ)} {selector : Term κ} {n : ℕ} {shapes : Fin n → Shape κ} {i : Fin n}
    (hle : (i : ℝ) / n ≤ (selector.value number bindings site).x)
    (hlt : (selector.value number bindings site).x < (i + 1) / n) :
    (choose selector n shapes).value number bindings site =
      (shapes i).value number bindings site := by
  refine foldr_select_of_first
    (fun i : Fin n => Scalar.lt (selector.value number bindings site).x (choiceBound i n)) ?_ ?_
  · rw [real_lt_iff, choiceBound_real]
    exact hlt
  · intro j hj
    have hnext : (j : ℝ) + 1 ≤ i := by exact_mod_cast hj
    rw [real_lt_iff, choiceBound_real, not_lt]
    exact (div_le_div_of_nonneg_right hnext n.cast_nonneg).trans hle

/-- A choice has the value, at the same place, of the shape with the least bound above the first lane
of its selector, and is zero if there is none; a choice that is compiled has that value as well.  In
exact arithmetic the bounds divide the unit interval evenly, so a selector from zero up to one finds
the shape of its part. -/
theorem choose_picks :
    (∀ (bindings : Bindings Float32) (site : Site (Vec3 Float32)) (selector : Term Word) (n : ℕ)
      (shapes : Fin n → Shape Word),
      let x := (selector.computed bindings site).x
      let value := (choose selector n shapes).computed bindings site
      (∀ i : Fin n, x < choiceBound i n → (∀ j < i, ¬ x < choiceBound j n) →
        value = (shapes i).computed bindings site) ∧
      ((∀ i : Fin n, ¬ x < choiceBound i n) → value = .zero)) ∧
    (∀ (bindings : Bindings Float32) (selector : Term Word) (n : ℕ) (shapes : Fin n → Shape Word),
      (choose selector n shapes).Closed →
        (choose selector n shapes).Compiles bindings ((choose selector n shapes).computed bindings) ∧
          ∀ i, (shapes i).Compiles bindings ((shapes i).computed bindings)) ∧
    ∀ {κ : Type} (number : κ → ℝ) (bindings : Bindings ℝ) (site : Site (Vec3 ℝ)) (selector : Term κ)
      (n : ℕ) (shapes : Fin n → Shape κ),
      let x := (selector.value number bindings site).x
      0 < n → 0 ≤ x → x < 1 →
        ∃ i : Fin n, (i : ℤ) = ⌊x * n⌋ ∧ (i : ℝ) / n ≤ x ∧ x < (i + 1) / n ∧
          (choose selector n shapes).value number bindings site =
            (shapes i).value number bindings site := by
  refine ⟨fun bindings site selector n shapes => ⟨fun i hi hfirst => ?_, fun hnone => ?_⟩,
    fun bindings selector n shapes hclosed => ⟨compiles_computed hclosed bindings, fun i =>
      compiles_computed (hclosed.2 i) bindings⟩,
    fun number bindings site selector n shapes hn hx hlt => ?_⟩
  · apply computed_choose_of_first
    · rw [ofWord_ofFloat]
      exact decide_eq_true hi
    · intro j hj
      rw [ofWord_ofFloat, Bool.not_eq_true]
      exact decide_eq_false (hfirst j hj)
  · apply computed_choose_of_none
    intro i
    rw [ofWord_ofFloat, Bool.not_eq_true]
    exact decide_eq_false (hnone i)
  · obtain ⟨i, hi, hle, hlt⟩ := exists_part hn hx hlt
    exact ⟨i, hi, hle, hlt, value_choose_of_first hle hlt⟩

/-- A ball, chosen out of three by their sizes. -/
def someBall (selector : Term Word) : Shape Word :=
  choose selector 3 ![sphere 1.0, sphere 2.0, sphere 3.0]

/-- Halfway the second of three is chosen, compiled or not, and at the end none. -/
theorem choose_picks_someBall :
    let bindings : Bindings Float32 := .atPoint .zero
    let site : Site (Vec3 Float32) := .outer .zero
    let base := (Build.var .position : Build Handle).run ∅
    let built := ((someBall 0.5).buildAt base.1).run base.2
    ((0.5 : Float32) < choiceBound 1 3 ∧ ∀ j < (1 : Fin 3), ¬ (0.5 : Float32) < choiceBound j 3) ∧
    (∀ i : Fin 3, ¬ (1.0 : Float32) < choiceBound i 3) ∧
    (someBall 1.0).computed bindings site = .zero ∧
    (∃ order, flatten built.2.nodes [built.1] = .ok order ∧
      ∀ slots : Slots Float32, slots.size = built.2.size →
        (Slots.run built.2.nodes order bindings slots).get built.1 =
          (sphere 2.0).computed bindings site) ∧
    ∃ i : Fin 3, (i : ℤ) = ⌊(1 / 2 : ℝ) * (3 : ℕ)⌋ ∧ (i : ℝ) / (3 : ℕ) ≤ 1 / 2 ∧
      (1 / 2 : ℝ) < (i + 1) / (3 : ℕ) := by
  intro bindings site
  dsimp only
  obtain ⟨hvalue, hcompiled, hexact⟩ := choose_picks
  have hbelow : (0.5 : Float32) < choiceBound 1 3 := by decide
  have habove : ∀ j < (1 : Fin 3), ¬ (0.5 : Float32) < choiceBound j 3 := by decide
  have hnone : ∀ i : Fin 3, ¬ (1.0 : Float32) < choiceBound i 3 := by decide
  have hhalf : ((0.5 : Term Word).computed bindings site).x = (0.5 : Float32) :=
    ofWord_ofScientific ..
  have hone : ((1.0 : Term Word).computed bindings site).x = (1.0 : Float32) :=
    ofWord_ofScientific ..
  have hball : (someBall 0.5).computed bindings site = (sphere 2.0).computed bindings site :=
    (hvalue bindings site 0.5 3 _).1 1 (by rwa [hhalf]) (by rwa [hhalf])
  have hempty : (someBall 1.0).computed bindings site = .zero :=
    (hvalue bindings site 1.0 3 _).2 (by rwa [hone])
  refine ⟨⟨hbelow, habove⟩, hnone, hempty, ?_, ?_⟩
  · have hclosed : (someBall 0.5).Closed := ⟨trivial, fun i => by fin_cases i <;> trivial⟩
    have hlength : ((someBall 0.5).assemble (.outer (.node (.var .position))) :
        Transcript Tree).made.length = 17 := rfl
    obtain ⟨hwp, hp, hsize⟩ := var_position_denotes
    obtain ⟨-, -, hroom, hwithin⟩ := buildAt_within hclosed hwp hp (by omega)
    have hcompiles : (someBall 0.5).Compiles bindings ((someBall 0.5).computed bindings) :=
      (hcompiled bindings 0.5 3 _ hclosed).1
    obtain ⟨order, horder, hrun⟩ := hcompiles hwp hp hp hroom hwithin
    have hsite : (⟨(Tree.node (.var .position)).eval bindings,
        (Tree.node (.var .position)).eval bindings⟩ : Site (Vec3 Float32)) = site := by
      rw [Tree.eval_node]
      rfl
    rw [hsite] at hrun
    exact ⟨order, horder, fun slots hslots => (hrun slots hslots).trans hball⟩
  · have hreal : ((0.5 : Term Word).value Scalar.ofWord (.atPoint .zero) (.outer .zero)).x =
        (1 / 2 : ℝ) := real_ofWord_half.trans real_half
    obtain ⟨i, hi, hle, hlt, -⟩ := hexact Scalar.ofWord (.atPoint .zero) (.outer .zero) 0.5 3
      ![sphere 1.0, sphere 2.0, sphere 3.0] (by decide) (by rw [hreal]; norm_num)
      (by rw [hreal]; norm_num)
    rw [hreal] at hi hle hlt
    exact ⟨i, hi, hle, hlt⟩

end Shape

/-! ## Pseudo-random selectors -/

namespace Binary32

/-- Binary32 arithmetic with another sine. -/
@[reducible] def withSine (sine : Float32 → Float32) : Scalar Float32 :=
  { (inferInstance : Scalar Float32) with sin := sine }

theorem withSine_sin : withSine Float32.sin = (inferInstance : Scalar Float32) := rfl

/-- What is not a number gives way to the limit. -/
theorem min_limit {x limit : Float32} (hx : ¬ x.isNaN → 0.0 ≤ x) (hlow : 0.0 ≤ limit)
    (hhigh : limit < 1.0) : 0.0 ≤ Scalar.min x limit ∧ Scalar.min x limit < 1.0 := by
  have hmin : Scalar.min x limit = if x.isNaN then limit else if limit < x then limit else x := rfl
  rw [hmin]
  split
  · exact ⟨hlow, hhigh⟩
  · next hnumber =>
    split
    · exact ⟨hlow, hhigh⟩
    · next hle =>
      have hle := le_of_not_lt (not_isNaN_of_zero_le hlow) hnumber hle
      exact ⟨hx hnumber, lt_of_le_of_lt hle hhigh⟩

/-- A number less its integer part is not negative, unless it is not a number. -/
theorem zero_le_sub_floor (v : Float32) (hnumber : ¬ (v - Scalar.floor v).isNaN) :
    0.0 ≤ v - Scalar.floor v := by
  have hv : ¬ v.isNaN := fun hv => hnumber (isNaN_sub_left hv _)
  have hfloor : (Word.ofFloat v).floor.toFloat ≤ (Word.ofFloat v).toFloat :=
    Word.floor_le (by rwa [toFloat_ofFloat])
  rw [toFloat_ofFloat] at hfloor
  exact zero_le_sub hfloor hnumber

/-- Noise is in the unit interval, whatever sine it is made with. -/
theorem noise_mem (sine : Float32 → Float32) (seed : Vec3 Float32) :
    0.0 ≤ @Intrinsic.noise Float32 (withSine sine) seed ∧
      @Intrinsic.noise Float32 (withSine sine) seed < 1.0 := by
  have hlow : (0.0 : Float32) ≤ 1.0 - Intrinsic.epsilon := by decide
  have hhigh : (1.0 - Intrinsic.epsilon : Float32) < 1.0 := by decide
  exact min_limit (zero_le_sub_floor _) hlow hhigh

/-- The last bound of a choice is one, whatever the length is rounded to. -/
theorem choiceBound_last {n : ℕ} (hpos : 0 < n) (hn : n < 2 ^ 64) :
    (choiceBound (n - 1) n : Float32) = 1.0 := by
  obtain ⟨m, e, hm, hlength⟩ := exists_unpack_ofLength hpos hn
  rw [choiceBound, Nat.sub_add_cancel hpos]
  exact div_self_eq_one hlength

/-- A selector below one is below the last bound, so there is a first that it is below. -/
theorem exists_first_bound {x : Float32} {n : ℕ} (hx : x < 1.0) (hpos : 0 < n) (hn : n < 2 ^ 64) :
    ∃ i : Fin n, x < choiceBound i n ∧ ∀ j < i, ¬ x < choiceBound j n := by
  apply (Fin.exists_iff_exists_minimal fun i : Fin n => x < choiceBound i n).1
  refine ⟨⟨n - 1, Nat.sub_lt hpos Nat.one_pos⟩, ?_⟩
  rwa [choiceBound_last hpos hn]

end Binary32

namespace Shape

/-- Noise is a number from zero up to one, for every seed and every sine, and the last bound of a
choice between shapes is one, for every length that a word of 64 bits holds.  So a choice at random has
the value of one of its shapes, wherever it is compiled, and never the value it has for want of a
shape. -/
theorem random_choice_lands (sine : Float32 → Float32) [arithmetic : Scalar Float32]
    (hsine : arithmetic = Binary32.withSine sine) :
    (∀ seed : Vec3 Float32, ¬ (Intrinsic.noise seed).isNaN ∧
      0.0 ≤ Intrinsic.noise seed ∧ Intrinsic.noise seed < 1.0) ∧
    (∀ n : ℕ, 0 < n → n < 2 ^ 64 → (choiceBound (n - 1) n : Float32) = 1.0) ∧
    ∀ (bindings : Bindings Float32) (seed : Term Word) (n : ℕ) (shapes : Fin n → Shape Word),
      0 < n → n < 2 ^ 64 →
        let choice := choose (.random seed) n shapes
        (∀ site, ∃ i, choice.computed bindings site = (shapes i).computed bindings site) ∧
          (choice.Closed → choice.Compiles bindings (choice.computed bindings)) := by
  subst hsine
  let _ := Binary32.withSine sine
  refine ⟨fun seed => ?_, fun n hpos hn => Binary32.choiceBound_last hpos hn,
    fun bindings seed n shapes hpos hn => ⟨fun site => ?_, fun hclosed =>
      compiles_computed hclosed bindings⟩⟩
  · have hnoise := Binary32.noise_mem sine seed
    exact ⟨Binary32.not_isNaN_of_zero_le hnoise.1, hnoise⟩
  · have hnoise := (Binary32.noise_mem sine (seed.computed bindings site)).2
    obtain ⟨i, hi, hfirst⟩ := Binary32.exists_first_bound hnoise hpos hn
    refine ⟨i, computed_choose_of_first ?_ fun j hj => ?_⟩
    · show decide (_ < (Word.ofFloat (choiceBound i n)).toFloat) = true
      rw [toFloat_ofFloat]
      exact decide_eq_true hi
    · show ¬ decide (_ < (Word.ofFloat (choiceBound j n)).toFloat) = true
      rw [toFloat_ofFloat, decide_eq_true_iff]
      exact hfirst j hj

theorem random_choice_lands_someBall :
    let shape := someBall (.random .here)
    0 < 3 ∧ 3 < 2 ^ 64 ∧ (choiceBound 2 3 : Float32) = 1.0 ∧ shape.Closed ∧
      shape.Compiles (.atPoint (.zero : Vec3 Float32)) (shape.computed (.atPoint .zero)) ∧
      ∃ i, shape.distanceAt (.zero : Vec3 Float32) =
        .ok ((![sphere 1.0, sphere 2.0, sphere 3.0] i).computed (.atPoint .zero) (.outer .zero)).x := by
  intro shape
  have hpos : 0 < 3 := by decide
  have hlt : 3 < 2 ^ 64 := by decide
  have hclosed : shape.Closed := ⟨trivial, fun i => by fin_cases i <;> trivial⟩
  have hlength : (shape.assemble (.outer (.node (.var .position))) :
      Transcript Tree).made.length = 17 := rfl
  obtain ⟨hroom, hwithin⟩ := alone_within hclosed (by rw [hlength]; omega)
  obtain ⟨-, hlast, hlands⟩ := random_choice_lands Float32.sin Binary32.withSine_sin.symm
  obtain ⟨hpicks, hcompiles⟩ := hlands (.atPoint .zero) .here 3 ![sphere 1.0, sphere 2.0, sphere 3.0]
    hpos hlt
  obtain ⟨i, hi⟩ := hpicks (.outer .zero)
  refine ⟨hpos, hlt, hlast 3 hpos hlt, hclosed, hcompiles hclosed, i, ?_⟩
  rw [distanceAt_eq_distanceUnder, distanceUnder_eq_computed hclosed hroom hwithin]
  exact congrArg (fun v : Vec3 Float32 => Except.ok v.x) hi

end Shape

end SphereTracer
