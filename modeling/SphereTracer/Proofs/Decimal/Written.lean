import SphereTracer.Decimal.Reading
import SphereTracer.Proofs.Decimal.Shortest

/-!
# Written decimals read back

A decimal is written with a point, with an exponent, or with both.  Reading its digits gives a decimal
of the same value, so a number that is written as its shortest decimal is read as itself.
-/

namespace SphereTracer

namespace Decimal

/-! ## Digits -/

theorem digitChars_eq (n : ℕ) : digitChars n = Nat.toDigits 10 n := by
  rw [digitChars, Nat.toString_eq_repr, Nat.repr_eq_ofList_toDigits, String.toList_ofList]

theorem digitChars_ne_nil (n : ℕ) : digitChars n ≠ [] := by
  rw [digitChars_eq]
  exact Nat.toDigits_ne_nil

theorem isDigit_of_mem_digitChars {n : ℕ} : ∀ c ∈ digitChars n, c.isDigit := by
  intro c hc
  rw [digitChars_eq] at hc
  exact Nat.isDigit_of_mem_toDigits (by norm_num) (by norm_num) hc

theorem ofDigits_digitChars (n : ℕ) : ofDigits (digitChars n) = n := by
  rw [digitChars_eq]
  exact Nat.ofDigitChars_toDigits (by norm_num) (by norm_num)

theorem isDigit_of_mem_zeros {n : ℕ} : ∀ c ∈ zeros n, c.isDigit := by
  intro c hc
  rw [List.eq_of_mem_replicate hc]
  rfl

theorem ofDigits_append_zeros (ds : List Char) (n : ℕ) :
    ofDigits (ds ++ zeros n) = ofDigits ds * 10 ^ n := by
  induction n with
  | zero => simp [zeros]
  | succ n ih =>
    rw [zeros, List.replicate_succ', ← List.append_assoc, ofDigits, List.foldl_append]
    change 10 * ofDigits (ds ++ zeros n) + 0 = _
    rw [ih, pow_succ]
    ring

theorem ofDigits_zeros_append (n : ℕ) (ds : List Char) :
    ofDigits (zeros n ++ ds) = ofDigits ds := by
  have hzero : ofDigits (zeros n) = 0 := by
    have h := ofDigits_append_zeros [] n
    rwa [List.nil_append, show ofDigits [] = 0 from rfl, zero_mul] at h
  rw [ofDigits, List.foldl_append]
  change List.foldl _ (ofDigits (zeros n)) ds = _
  rw [hzero]
  rfl

/-! ## Numerals -/

/-- The fraction with its point, if there is one. -/
def point (fraction : List Char) : List Char := if fraction.isEmpty then [] else '.' :: fraction

/-- An exponent behind its letter, or nothing. -/
inductive Ending : List Char → ℤ → Prop
  | none : Ending [] 0
  | positive {ds : List Char} (hne : ds ≠ []) (hds : ∀ c ∈ ds, c.isDigit) :
      Ending ('e' :: ds) (ofDigits ds)
  | negative {ds : List Char} (hne : ds ≠ []) (hds : ∀ c ∈ ds, c.isDigit) :
      Ending ('e' :: '-' :: ds) (-(ofDigits ds : ℤ))

/-- A decimal as a numeral: digits, more digits behind a point, and an exponent. -/
inductive Numeral : List Char → Decimal → Prop
  | mk (whole fraction : List Char) {rest : List Char} {e : ℤ} (hne : whole ≠ [])
      (hwhole : ∀ c ∈ whole, c.isDigit) (hfraction : ∀ c ∈ fraction, c.isDigit)
      (hrest : Ending rest e) :
      Numeral (whole ++ point fraction ++ rest) ⟨ofDigits (whole ++ fraction), e - fraction.length⟩

theorem Numeral.exists_cons {cs : List Char} {d : Decimal} (h : Numeral cs d) :
    ∃ c rest, cs = c :: rest ∧ c.isDigit := by
  obtain ⟨whole, fraction, hne, hwhole, -, -⟩ := h
  obtain ⟨c, rest, rfl⟩ := List.exists_cons_of_ne_nil hne
  exact ⟨c, _, rfl, hwhole c List.mem_cons_self⟩

theorem ne_sign_of_isDigit {c : Char} (h : c.isDigit) : c ≠ '-' ∧ c ≠ '+' := by
  constructor <;> rintro rfl <;> exact absurd h (by decide)

theorem exponent?_digits {ds : List Char} (hne : ds ≠ []) (hds : ∀ c ∈ ds, c.isDigit) :
    exponent? ds = some (ofDigits ds) ∧ exponent? ('-' :: ds) = some (-(ofDigits ds : ℤ)) := by
  have hempty : ds.isEmpty = false := List.isEmpty_eq_false_iff.2 hne
  have hall : ds.all Char.isDigit = true := List.all_eq_true.2 hds
  constructor
  · obtain ⟨c, cs, rfl⟩ := List.exists_cons_of_ne_nil hne
    obtain ⟨hminus, hplus⟩ := ne_sign_of_isDigit (hds c List.mem_cons_self)
    unfold exponent?
    split
    · next hsplit =>
      split at hsplit
      · next heq => exact absurd (List.cons.inj heq).1 hminus
      · next heq => exact absurd (List.cons.inj heq).1 hplus
      · obtain ⟨rfl, rfl⟩ := Prod.mk.inj hsplit
        simp [hall]
  · simp [exponent?, hempty, hall]

theorem Ending.stops {rest : List Char} {e : ℤ} (h : Ending rest e) :
    rest.takeWhile Char.isDigit = [] ∧ rest.dropWhile Char.isDigit = rest := by
  cases h <;> exact ⟨rfl, rfl⟩

/-- A numeral is read as its decimal. -/
theorem Numeral.ofChars?_eq {cs : List Char} {d : Decimal} (h : Numeral cs d) :
    ofChars? cs = some d := by
  obtain ⟨whole, fraction, hne, hwhole, hfraction, hrest⟩ := h
  obtain ⟨htake, hdrop⟩ := hrest.stops
  have hempty : whole.isEmpty = false := List.isEmpty_eq_false_iff.2 hne
  unfold ofChars? point
  rw [List.append_assoc, List.takeWhile_append_of_pos hwhole, List.dropWhile_append_of_pos hwhole]
  -- The reader stops at the first character that is no digit: the point, the letter, or the end.
  cases fraction with
  | nil =>
    simp only [List.isEmpty_nil, if_true, List.nil_append, List.append_nil, htake, hdrop]
    cases hrest with
    | none => simp [hne]
    | positive hne' hds => simp [hne, (exponent?_digits hne' hds).1]
    | negative hne' hds => simp [hne, (exponent?_digits hne' hds).2]
  | cons d ds =>
    have hstop (rest : List Char) : ('.' :: (d :: ds) ++ rest).takeWhile Char.isDigit = [] ∧
        ('.' :: (d :: ds) ++ rest).dropWhile Char.isDigit = '.' :: (d :: ds ++ rest) := ⟨rfl, rfl⟩
    simp only [List.isEmpty_cons, Bool.false_eq_true, if_false, hstop, List.append_nil,
      List.takeWhile_append_of_pos hfraction, List.dropWhile_append_of_pos hfraction, htake, hdrop,
      hempty, Bool.false_and]
    cases hrest with
    | none => simp
    | positive hne' hds => simp [(exponent?_digits hne' hds).1]
    | negative hne' hds => simp [(exponent?_digits hne' hds).2]

/-! ## Styles -/

theorem ending_toString (place : ℤ) : Ending ('e' :: (toString place).toList) place := by
  rw [Int.toString_eq_repr]
  cases place with
  | ofNat n =>
    have h := Ending.positive (digitChars_ne_nil n) isDigit_of_mem_digitChars
    rw [ofDigits_digitChars] at h
    exact h
  | negSucc n =>
    have h := Ending.negative (digitChars_ne_nil (n + 1)) isDigit_of_mem_digitChars
    rw [ofDigits_digitChars] at h
    change Ending ('e' :: ("-" ++ (n + 1).repr).toList) _
    rw [String.toList_append]
    exact h

section
variable {ds : List Char}

/-- The point stands behind all digits. -/
theorem numeral_behind (hne : ds ≠ []) (hds : ∀ c ∈ ds, c.isDigit) (n : ℕ) :
    ∃ d, Numeral (ds ++ zeros n ++ ['.', '0']) d ∧ d.value = ofDigits ds * 10 ^ (n : ℤ) ∧
      d.exponent = -1 := by
  have hwhole : ∀ c ∈ ds ++ zeros n, c.isDigit := fun c hc =>
    (List.mem_append.1 hc).elim (hds c) (isDigit_of_mem_zeros c)
  have h := Numeral.mk (ds ++ zeros n) ['0'] (by simp [hne]) hwhole (by simp) .none
  rw [List.append_nil] at h
  refine ⟨_, h, ?_, rfl⟩
  have hzeros : ds ++ zeros n ++ ['0'] = ds ++ zeros (n + 1) := by
    rw [List.append_assoc]
    congr 1
    exact List.replicate_succ'.symm
  rw [value, hzeros, ofDigits_append_zeros]
  push_cast
  simp only [pow_succ, List.length_singleton, Nat.cast_one, zero_sub, zpow_neg, zpow_one,
    zpow_natCast]
  field_simp

/-- The point stands among the digits. -/
theorem numeral_among (hds : ∀ c ∈ ds, c.isDigit) {n : ℕ} (hpos : 0 < n) (hn : n < ds.length) :
    Numeral (ds.take n ++ ['.'] ++ ds.drop n) ⟨ofDigits ds, n - ds.length⟩ := by
  have hne : ds.take n ≠ [] := by
    rw [← List.length_pos_iff, List.length_take]
    omega
  have hsome : (ds.drop n).isEmpty = false := by
    rw [List.isEmpty_eq_false_iff, ← List.length_pos_iff, List.length_drop]
    omega
  have h := Numeral.mk _ (ds.drop n) hne (fun c hc => hds c (List.mem_of_mem_take hc))
    (fun c hc => hds c (List.mem_of_mem_drop hc)) .none
  have hexponent : (0 : ℤ) - (ds.drop n).length = n - ds.length := by
    rw [List.length_drop]
    omega
  rw [point, hsome, List.append_nil, List.take_append_drop, hexponent] at h
  simpa using h

/-- The point stands in front of the digits, with zeros between. -/
theorem numeral_before (hne : ds ≠ []) (hds : ∀ c ∈ ds, c.isDigit) (n : ℕ) :
    Numeral (['0', '.'] ++ zeros n ++ ds) ⟨ofDigits ds, -(n + ds.length)⟩ := by
  have hfraction : ∀ c ∈ zeros n ++ ds, c.isDigit := fun c hc =>
    (List.mem_append.1 hc).elim (isDigit_of_mem_zeros c) (hds c)
  have h := Numeral.mk ['0'] _ (by simp) (by simp) hfraction .none
  have hsome : (zeros n ++ ds).isEmpty = false := by simp [hne]
  have hvalue : ofDigits (['0'] ++ (zeros n ++ ds)) = ofDigits ds :=
    ofDigits_zeros_append (n + 1) ds
  have hexponent : (0 : ℤ) - (zeros n ++ ds).length = -(n + ds.length) := by
    rw [List.length_append, zeros, List.length_replicate]
    push_cast
    omega
  rw [point, hsome, List.append_nil, hvalue, hexponent] at h
  simpa using h

theorem numeral_positional (hne : ds ≠ []) (hds : ∀ c ∈ ds, c.isDigit) (e : ℤ) :
    ∃ d, Numeral (positional ds e) d ∧ d.value = ofDigits ds * 10 ^ e ∧
      min (-1) e ≤ d.exponent := by
  unfold positional
  split
  · next he =>
    obtain ⟨n, rfl⟩ := Int.eq_ofNat_of_zero_le he
    obtain ⟨d, hd, hvalue, hexponent⟩ := numeral_behind hne hds n
    exact ⟨d, hd, hvalue, hexponent ▸ min_le_left _ _⟩
  · split
    · next he hlength =>
      obtain ⟨n, hn⟩ := Int.eq_ofNat_of_zero_le hlength.le
      have h := numeral_among hds (show 0 < n by omega) (show n < ds.length by omega)
      have hexponent : (n : ℤ) - ds.length = e := by omega
      rw [hexponent] at h
      rw [hn]
      exact ⟨_, h, rfl, min_le_right _ _⟩
    · next he hlength =>
      obtain ⟨n, hn⟩ := Int.eq_ofNat_of_zero_le (show 0 ≤ -(ds.length + e) by omega)
      have h := numeral_before hne hds n
      have hexponent : -((n : ℤ) + ds.length) = e := by omega
      rw [hexponent] at h
      rw [hn]
      exact ⟨_, h, rfl, min_le_right _ _⟩

theorem numeral_scientific (hne : ds ≠ []) (hds : ∀ c ∈ ds, c.isDigit) (place : ℤ) :
    Numeral (scientific false ds place) ⟨ofDigits ds, place - (ds.length - 1 : ℕ)⟩ := by
  have hne' : ds.take 1 ≠ [] := by simp [hne]
  have h := Numeral.mk _ (ds.drop 1) hne' (fun c hc => hds c (List.mem_of_mem_take hc))
    (fun c hc => hds c (List.mem_of_mem_drop hc)) (ending_toString place)
  rw [List.take_append_drop, List.length_drop] at h
  simpa [scientific, point] using h

end

/-- A decimal is written as a constant by a numeral of the same value. -/
theorem numeral_chars (d : Decimal) : ∃ d', Numeral (chars .constant d) d' ∧
    d'.value = d.value ∧ min (-1) d.exponent ≤ d'.exponent := by
  have hne := digitChars_ne_nil d.digits
  have hdigits := isDigit_of_mem_digitChars (n := d.digits)
  have hlength := List.length_pos_iff.2 hne
  unfold chars
  simp only
  split
  · have h := numeral_positional hne hdigits d.exponent
    rwa [ofDigits_digitChars] at h
  · have h := numeral_scientific hne hdigits ((digitChars d.digits).length - 1 + d.exponent)
    have hplace : ((digitChars d.digits).length - 1 + d.exponent : ℤ) -
        ((digitChars d.digits).length - 1 : ℕ) = d.exponent := by omega
    rw [ofDigits_digitChars, hplace] at h
    exact ⟨d, h, rfl, min_le_right _ _⟩

/-! ## Numbers -/

/-- The text of a number whose pattern has no sign. -/
def unsignedChars (bits : ℕ) : List Char :=
  if bits = 0 then ['0', '.', '0']
  else ((Rounded.ofBits 23 (-149) bits).shortest Style.constant.tie).chars .constant

theorem numeral_unsignedChars {bits : ℕ} (hbits : bits < 0x7f800000) :
    ∃ d, Numeral (unsignedChars bits) d ∧ nearestBits d = bits := by
  unfold unsignedChars
  split
  · next h =>
    subst h
    exact ⟨_, .mk ['0'] ['0'] (by simp) (by simp) (by simp) .none, rfl⟩
  · next h =>
    have hr := ofBits_binary32 (Nat.pos_of_ne_zero h)
    obtain ⟨hnear, hexponent⟩ := shortest_near hr Style.constant.tie
    obtain ⟨d, hd, hvalue, hleast⟩ := numeral_chars
      ((Rounded.ofBits 23 (-149) bits).shortest Style.constant.tie)
    refine ⟨d, hd, nearestBits_eq hr hbits (by omega) ?_⟩
    rw [hvalue]
    exact hnear

end Decimal

open Decimal

theorem Word.magnitude_lt {w : Word} (h : w.isFinite) : w.magnitude.toNat < 0x7f800000 := by
  exact UInt32.lt_iff_toNat_lt.1 (of_decide_eq_true h)

theorem Word.toList_text {w : Word} (h : w.isFinite) : w.text.toList =
    (if w.isNegative then ['-'] else []) ++ unsignedChars w.magnitude.toNat := by
  unfold text
  rw [if_pos h, String.toList_ofList]
  rfl

theorem Word.ofChars_unsignedChars {w : Word} (h : w.isFinite) :
    ofChars (unsignedChars w.magnitude.toNat) = .ok ⟨w.magnitude⟩ := by
  obtain ⟨d, hd, hbits⟩ := numeral_unsignedChars (magnitude_lt h)
  obtain ⟨c, rest, hcs, hc⟩ := hd.exists_cons
  obtain ⟨hminus, hplus⟩ := ne_sign_of_isDigit hc
  have hread : ofUnsigned false (c :: rest) = .ok ⟨w.magnitude⟩ := by
    rw [ofUnsigned, ← hcs, hd.ofChars?_eq]
    simp only [toWord, hbits, Bool.false_eq_true, if_false]
    rw [UInt32.ofNat_toNat]
  rw [hcs]
  unfold ofChars
  split
  · next heq => exact absurd heq (by simp)
  · next heq => exact absurd (List.cons.inj heq).1 hminus
  · next heq => exact absurd (List.cons.inj heq).1 hplus
  · exact hread

end SphereTracer
