import SphereTracer.Proofs.Decimal.Shortest

/-!
# Fewest digits

The search for a shortest decimal meets the grids from the coarsest downward, so it stops at the
coarsest that has a point in the interval of its number.  No decimal with fewer digits lies there: a
power of ten between the two would be on a coarser grid.
-/

namespace SphereTracer.Decimal

variable {r : Rounded} {bits : ℕ}

theorem Rounded.Near.between {x y z : ℚ} (hx : r.Near x) (hz : r.Near z) (hxy : x ≤ y)
    (hyz : y ≤ z) : r.Near y := by
  unfold Near at hx hz ⊢
  split_ifs at hx hz ⊢
  · exact ⟨hx.1.trans hxy, hyz.trans hz.2⟩
  · exact ⟨hx.1.trans_le hxy, hyz.trans_lt hz.2⟩

theorem value_le_value {c d : ℕ} (h : c ≤ d) (k : ℤ) : value ⟨c, k⟩ ≤ value ⟨d, k⟩ := by
  unfold value
  gcongr

theorem floorOn_spec (r : Rounded) (k : ℤ) : value ⟨(r.floorOn k).1, k⟩ ≤ r.m * 2 ^ r.q ∧
    (r.m * 2 ^ r.q : ℚ) < value ⟨(r.floorOn k).1 + 1, k⟩ := by
  obtain ⟨hup, hdown, hten⟩ := power_spec 10 (by norm_num) k
  obtain ⟨-, hden, htwo⟩ := power_spec 2 (by norm_num) r.q
  have hdown' : (0 : ℚ) < (power 10 k).2 := Nat.cast_pos.2 hdown
  have hden' : (0 : ℚ) < (power 2 r.q).2 := Nat.cast_pos.2 hden
  have hwidth : 0 < (power 10 k).1 * (power 2 r.q).2 := Nat.mul_pos hup hden
  have hfloor : (r.floorOn k).1 =
      r.m * (power 2 r.q).1 * (power 10 k).2 / ((power 10 k).1 * (power 2 r.q).2) := rfl
  have hscale : (0 : ℚ) < (power 10 k).2 * (power 2 r.q).2 := mul_pos hdown' hden'
  push_cast at hten htwo
  constructor
  · have hle := Nat.div_mul_le_self (r.m * (power 2 r.q).1 * (power 10 k).2)
      ((power 10 k).1 * (power 2 r.q).2)
    rw [← hfloor, ← Nat.cast_le (α := ℚ)] at hle
    push_cast at hle
    rw [hten, htwo] at hle
    refine le_of_mul_le_mul_right ?_ hscale
    unfold value
    linarith
  · have hlt := Nat.lt_div_mul_add (a := r.m * (power 2 r.q).1 * (power 10 k).2) hwidth
    rw [← hfloor, ← Nat.cast_lt (α := ℚ)] at hlt
    push_cast at hlt
    rw [hten, htwo] at hlt
    refine lt_of_mul_lt_mul_right ?_ hscale.le
    unfold value
    push_cast
    linarith

/-- A grid with a point in the interval has one next to the number. -/
theorem exists_nearest (hr : r.Binary32 bits) (tie : Tie) {k : ℤ} {c : ℕ}
    (hc : r.Near (value ⟨c, k⟩)) : ∃ d, r.nearest? tie k = some d := by
  obtain ⟨hbelow, habove⟩ := floorOn_spec r k
  have hself := near_self hr
  have hneighbour : r.holds k (r.floorOn k).1 = true ∨ r.holds k ((r.floorOn k).1 + 1) = true := by
    rw [holds_iff hr, holds_iff hr]
    rcases Nat.lt_or_ge (r.floorOn k).1 c with hlt | hge
    · exact .inr (hself.between hc habove.le (value_le_value hlt k))
    · exact .inl (hc.between hself (value_le_value hge k) hbelow)
  unfold Rounded.nearest?
  generalize r.floorOn k = place at *
  obtain ⟨d, rest⟩ := place
  simp only at hneighbour ⊢
  split
  · exact ⟨_, rfl⟩
  · exact ⟨_, rfl⟩
  · exact ⟨_, rfl⟩
  · next h₁ h₂ => simp [h₁, h₂] at hneighbour

/-- A search that meets a grid with a point in the interval ends with the coarsest one. -/
theorem search_coarsest (hr : r.Binary32 bits) (tie : Tie) {fuel : ℕ} {k j : ℤ} {c : ℕ}
    (hj : k - fuel < j) (hc : r.Near (value ⟨c, j⟩))
    (hcoarser : ∀ i > k, ∀ d, ¬ r.Near (value ⟨d, i⟩)) :
    ∀ i > (r.search tie fuel k).exponent, ∀ d, ¬ r.Near (value ⟨d, i⟩) := by
  have hle : j ≤ k := not_lt.1 fun hlt => hcoarser j hlt c hc
  induction fuel generalizing k with
  | zero =>
    push_cast at hj
    omega
  | succ fuel ih =>
    unfold Rounded.search
    cases hd : r.nearest? tie k with
    | some d => exact hcoarser
    | none =>
      have hnone : ∀ d, ¬ r.Near (value ⟨d, k⟩) := fun d hnear => by
        obtain ⟨d', hd'⟩ := exists_nearest hr tie hnear
        rw [hd] at hd'
        cases hd'
      have hne : j ≠ k := fun heq => hnone c (heq ▸ hc)
      refine ih (by push_cast at hj; omega) (fun i hi d => ?_) (by omega)
      rcases (show k ≤ i by omega).eq_or_lt with rfl | hlt
      · exact hnone d
      · exact hcoarser i hlt d

/-! ## The grids that are searched -/

theorem zpow_le_zpow_of_nonpos {a b : ℚ} {n : ℤ} (ha : 0 < a) (hab : a ≤ b) (hn : n ≤ 0) :
    b ^ n ≤ a ^ n := by
  obtain ⟨k, rfl⟩ : ∃ k : ℕ, n = -k := ⟨(-n).toNat, by omega⟩
  rw [zpow_neg, zpow_neg, zpow_natCast, zpow_natCast]
  exact inv_anti₀ (pow_pos ha k) (pow_le_pow_left₀ ha.le hab k)

/-- A power of two, by a power of ten for each of its pieces of `p` bits and for what remains. -/
theorem two_zpow_le_of_pieces {p s i a : ℤ} (hpieces : (2 : ℚ) ^ (p * i) ≤ 10 ^ (s * i))
    (ha : 0 ≤ a) : (2 : ℚ) ^ (p * i + a) ≤ 10 ^ (s * i + (a + 2) / 3) := by
  have hrest : (2 : ℚ) ^ a ≤ 10 ^ ((a + 2) / 3) :=
    calc (2 : ℚ) ^ a ≤ 2 ^ (3 * ((a + 2) / 3)) := zpow_le_zpow_right₀ (by norm_num) (by omega)
      _ = 8 ^ ((a + 2) / 3) := by rw [zpow_mul]; norm_num
      _ ≤ 10 ^ ((a + 2) / 3) := zpow_le_zpow_left₀ (by omega) (by norm_num) (by norm_num)
  rw [zpow_add₀ two_ne_zero, zpow_add₀ (by norm_num)]
  exact mul_le_mul hpieces hrest (by positivity) (by positivity)

/-- Three places above the estimate there is no binary32 number. -/
theorem two_zpow_le {n : ℤ} (hlow : -148 ≤ n) (hhigh : n ≤ 128) :
    (2 : ℚ) ^ n ≤ 10 ^ (n * 30103 / 100000 + 3) := by
  -- Thirteen bits are less than four digits; for fractions, ten bits are more than three.
  rcases le_total 0 n with hn | hn
  · have hpieces : (2 : ℚ) ^ (13 * (n / 13)) ≤ 10 ^ (4 * (n / 13)) := by
      rw [zpow_mul, zpow_mul]
      exact zpow_le_zpow_left₀ (by omega) (by norm_num) (by norm_num)
    calc (2 : ℚ) ^ n = 2 ^ (13 * (n / 13) + n % 13) := by rw [Int.mul_ediv_add_emod]
      _ ≤ 10 ^ (4 * (n / 13) + (n % 13 + 2) / 3) := two_zpow_le_of_pieces hpieces (by omega)
      _ ≤ 10 ^ (n * 30103 / 100000 + 3) := zpow_le_zpow_right₀ (by norm_num) (by omega)
  · have hpieces : (2 : ℚ) ^ (10 * (n / 10)) ≤ 10 ^ (3 * (n / 10)) := by
      rw [zpow_mul, zpow_mul]
      exact zpow_le_zpow_of_nonpos (by norm_num) (by norm_num) (by omega)
    calc (2 : ℚ) ^ n = 2 ^ (10 * (n / 10) + n % 10) := by rw [Int.mul_ediv_add_emod]
      _ ≤ 10 ^ (3 * (n / 10) + (n % 10 + 2) / 3) := two_zpow_le_of_pieces hpieces (by omega)
      _ ≤ 10 ^ (n * 30103 / 100000 + 3) := zpow_le_zpow_right₀ (by norm_num) (by omega)

/-- The estimate is at most five places too high. -/
theorem ten_zpow_le {n : ℤ} (hlow : -148 ≤ n) (hhigh : n ≤ 128) :
    (10 : ℚ) ^ (n * 30103 / 100000) ≤ 10 ^ 5 * 2 ^ n := by
  obtain ⟨p, s, hp, hpieces⟩ : ∃ p s : ℤ, n * 30103 / 100000 ≤ 5 + s ∧ p ≤ n ∧
      (10 : ℚ) ^ s ≤ 2 ^ p := by
    rcases le_total 0 n with hn | hn
    · refine ⟨10 * (n / 10), 3 * (n / 10), by omega, by omega, ?_⟩
      rw [zpow_mul, zpow_mul]
      exact zpow_le_zpow_left₀ (by omega) (by norm_num) (by norm_num)
    · refine ⟨3 * (n / 3), 1 * (n / 3), by omega, by omega, ?_⟩
      rw [zpow_mul, zpow_mul]
      exact zpow_le_zpow_of_nonpos (by norm_num) (by norm_num) (by omega)
  calc (10 : ℚ) ^ (n * 30103 / 100000) ≤ 10 ^ (5 + s) := zpow_le_zpow_right₀ (by norm_num) hp
    _ = 10 ^ 5 * 10 ^ s := by rw [zpow_add₀ (by norm_num)]; norm_num
    _ ≤ 10 ^ 5 * 2 ^ p := by gcongr; exact hpieces.2
    _ ≤ 10 ^ 5 * 2 ^ n := by gcongr; exacts [by norm_num, hpieces.1]

section
variable (hr : r.Binary32 bits) (hbits : bits < 0x7f800000)
include hr hbits

theorem magnitude_range :
    -148 ≤ (r.m.log2 + 1 + r.q : ℤ) ∧ (r.m.log2 + 1 + r.q : ℤ) ≤ 128 := by
  have hleast := hr.least
  have hpattern := hr.pattern
  have hnormal := hr.normal
  have hlog : r.m.log2 < 24 := (Nat.log2_lt hr.pos.ne').2 hr.lt
  omega

/-- The grids above the first one have no point in the interval. -/
theorem not_near_above {i : ℤ} (hi : r.magnitude < i) (d : ℕ) : ¬ r.Near (value ⟨d, i⟩) := by
  intro hnear
  obtain ⟨hlow, hhigh⟩ := magnitude_range hr hbits
  have hpos := hr.near_pos hnear
  have hd : 1 ≤ d := Nat.pos_of_ne_zero fun h0 => by simp [value, h0] at hpos
  have hm : (r.m : ℚ) + 1 ≤ 2 ^ (r.m.log2 + 1) := by exact_mod_cast Nat.lt_log2_self
  have hunit : (0 : ℚ) < 2 ^ r.q := by positivity
  refine hnear.le.2.not_gt ?_
  calc (r.m + 1 / 2 : ℚ) * 2 ^ r.q < (r.m + 1) * 2 ^ r.q := by gcongr; norm_num
    _ ≤ 2 ^ (r.m.log2 + 1) * 2 ^ r.q := by gcongr
    _ = 2 ^ (r.m.log2 + 1 + r.q : ℤ) := by
      rw [zpow_add₀ two_ne_zero]
      norm_cast
    _ ≤ 10 ^ ((r.m.log2 + 1 + r.q : ℤ) * 30103 / 100000 + 3) := two_zpow_le hlow hhigh
    _ ≤ 10 ^ i := by
      refine zpow_le_zpow_right₀ (by norm_num) ?_
      unfold Rounded.magnitude at hi
      omega
    _ ≤ value ⟨d, i⟩ := by simpa [value] using value_le_value hd i

/-- The last grid that is searched has a point in the interval. -/
theorem near_below : r.Near (value ⟨(r.floorOn (r.magnitude - 23)).1, r.magnitude - 23⟩) := by
  obtain ⟨hlow, hhigh⟩ := magnitude_range hr hbits
  obtain ⟨hfloor, hnext⟩ := floorOn_spec r (r.magnitude - 23)
  have hunit : (0 : ℚ) < 2 ^ r.q := by positivity
  have hm : (2 : ℚ) ^ (r.m.log2 + 1) ≤ 2 * 0x1000000 := by
    rw [pow_succ]
    have hlog : (2 : ℚ) ^ r.m.log2 ≤ r.m := by exact_mod_cast Nat.log2_self_le hr.pos.ne'
    have hlt : (r.m : ℚ) < 0x1000000 := by exact_mod_cast hr.lt
    linarith
  -- The points of this grid are closer together than the interval reaches down.
  have hwidth : (10 : ℚ) ^ (r.magnitude - 23) < 1 / 4 * 2 ^ r.q :=
    calc (10 : ℚ) ^ (r.magnitude - 23)
        = 10 ^ ((r.m.log2 + 1 + r.q : ℤ) * 30103 / 100000) * 10 ^ (-21 : ℤ) := by
          rw [← zpow_add₀ (by norm_num)]
          congr 1
          unfold Rounded.magnitude
          ring
      _ ≤ 10 ^ 5 * 2 ^ (r.m.log2 + 1 + r.q : ℤ) * 10 ^ (-21 : ℤ) := by
          gcongr
          exact ten_zpow_le hlow hhigh
      _ = 10 ^ 5 * (2 ^ (r.m.log2 + 1) * 2 ^ r.q) * 10 ^ (-21 : ℤ) := by
          rw [zpow_add₀ two_ne_zero]
          norm_cast
      _ ≤ 10 ^ 5 * (2 * 0x1000000 * 2 ^ r.q) * 10 ^ (-21 : ℤ) := by gcongr
      _ < 1 / 4 * 2 ^ r.q := by norm_num; linarith
  have hbelow := hr.one_le_below
  have hgap : value ⟨(r.floorOn (r.magnitude - 23)).1 + 1, r.magnitude - 23⟩ =
      value ⟨(r.floorOn (r.magnitude - 23)).1, r.magnitude - 23⟩ + 10 ^ (r.magnitude - 23) := by
    unfold value
    push_cast
    ring
  unfold Rounded.Near
  split
  · constructor <;> nlinarith
  · constructor <;> nlinarith

/-- No decimal of an interval has fewer digits than the one that is found. -/
theorem shortest_fewest (tie : Tie) {d : Decimal} (hd : r.Near d.value) {count : ℕ}
    (hcount : d.digits < 10 ^ count) : (r.shortest tie).digits < 10 ^ count := by
  have hcoarsest : ∀ i > (r.shortest tie).exponent, ∀ c, ¬ r.Near (value ⟨c, i⟩) :=
    search_coarsest hr tie (by norm_num) (near_below hr hbits)
      fun i hi c => not_near_above hr hbits hi c
  have hexponent : d.exponent ≤ (r.shortest tie).exponent :=
    not_lt.1 fun hlt => hcoarsest _ hlt _ hd
  by_contra hge
  have hpositive : count ≠ 0 := by
    rintro rfl
    have hpos := hr.near_pos hd
    have hzero : d.digits = 0 := by simpa using hcount
    simp [value, hzero] at hpos
  -- A power of ten between the two decimals is a point of a coarser grid.
  have hten (e : ℤ) : value ⟨10 ^ count, e⟩ = value ⟨1, count + e⟩ := by
    simp only [value]
    rw [zpow_add₀ (by norm_num)]
    push_cast
    rw [zpow_natCast, one_mul]
  refine hcoarsest (count + (r.shortest tie).exponent) (by omega) 1
    (hd.between (shortest_near hr tie).1 ?_ ?_)
  · calc d.value ≤ value ⟨10 ^ count, d.exponent⟩ := value_le_value hcount.le _
      _ = value ⟨1, count + d.exponent⟩ := hten _
      _ ≤ value ⟨1, count + (r.shortest tie).exponent⟩ := by
        simp only [value]
        gcongr
        norm_num
  · rw [← hten]
    exact value_le_value (not_lt.1 hge) _

end

end SphereTracer.Decimal
