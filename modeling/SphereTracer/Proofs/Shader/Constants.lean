import SphereTracer.Proofs.Decimal.Fewest
import SphereTracer.Proofs.Decimal.Nearest
import SphereTracer.Proofs.Shader.Phrase

/-!
# Constants as text

A finite constant is written with a point or an exponent, in as few digits as any decimal that rounds
to it, and its text is read as the constant, bit by bit.  So different constants have different texts.
-/

namespace SphereTracer

namespace Word

variable {w : Word}

theorem ofChars_text (h : w.isFinite) : ofChars w.text.toList = .ok w := by
  rw [toList_text h]
  split
  · next hsign =>
    obtain ⟨d, hd, hbits⟩ := Decimal.numeral_unsignedChars (magnitude_lt h)
    change ofUnsigned true (Decimal.unsignedChars _) = _
    rw [ofUnsigned, hd.ofChars?_eq]
    simp only [Decimal.toWord, hbits, if_true, UInt32.ofNat_toNat, (magnitude_or_sign hsign).1]
  · next hsign =>
    rw [List.nil_append, ofChars_unsignedChars h, magnitude_eq hsign]

end Word

namespace Decimal

theorem mem_chars (d : Decimal) : '.' ∈ chars .constant d ∨ 'e' ∈ chars .constant d := by
  unfold chars
  simp only
  split
  · left
    unfold positional
    split
    · simp
    · split <;> simp
  · right
    simp [scientific]

theorem mem_unsignedChars (n : ℕ) : '.' ∈ unsignedChars n ∨ 'e' ∈ unsignedChars n := by
  unfold unsignedChars
  split
  · simp
  · exact mem_chars _

/-- Of the decimals that a pattern is nearest to, none has fewer digits than it takes to write the
value of `d`. -/
def Shortest (n : ℕ) (d : Decimal) : Prop :=
  ∀ (d' : Decimal) (count : ℕ), Nearest n d'.value → d'.digits < 10 ^ count →
    ∃ s : Decimal, s.value = d.value ∧ s.digits < 10 ^ count

theorem exists_numeral {n : ℕ} (hn : n < 0x7f800000) :
    ∃ d, Numeral (unsignedChars n) d ∧ Nearest n d.value ∧ Shortest n d := by
  rcases Nat.eq_zero_or_pos n with rfl | hpos
  · have hvalue : value ⟨0, -1⟩ = patternValue 0 := by norm_num [value, patternValue, ofBits_subnormal]
    have hnumeral : Numeral (unsignedChars 0) ⟨0, -1⟩ :=
      .mk ['0'] ['0'] (by simp) (by simp) (by simp) .none
    refine ⟨_, hnumeral, hvalue ▸ nearest_patternValue 0, fun d' count _ _ => ⟨_, rfl, ?_⟩⟩
    exact Nat.pow_pos (by norm_num)
  · have hr := ofBits_binary32 hpos
    obtain ⟨d, hd, hvalue, -⟩ :=
      numeral_chars ((Rounded.ofBits 23 (-149) n).shortest Style.constant.tie)
    rw [unsignedChars, if_neg hpos.ne']
    refine ⟨d, hd, ?_, fun d' count hnear hcount => ⟨_, hvalue.symm, ?_⟩⟩
    · rw [hvalue, nearest_iff_near hpos]
      exact (shortest_near hr _).1
    · exact shortest_fewest hr hn _ ((nearest_iff_near hpos).1 hnear) hcount

end Decimal

namespace Shader

open Decimal

/-! ## Reading constants -/

namespace Phrase

/-- The number that a numeral stands for; a sign in front of it turns the sign bit. -/
def literal? : Phrase → Option Word
  | number text => (Word.ofChars text.toList).toOption
  | negated a => (literal? a).map (-·)
  | _ => none

/-- The vector that a constructor of numerals stands for. -/
def constant? : Phrase → Option (Vec3 Word)
  | call "vec3<f32>" [a] => a.literal?.map .splat
  | call "vec3<f32>" [a, b, c] => do return ⟨← a.literal?, ← b.literal?, ← c.literal?⟩
  | _ => none

end Phrase

/-- Reads a text as a constant number of the language. -/
def readNumber? (s : String) : Option Word := (Phrase.ofTokens (Token.ofText s)).bind Phrase.literal?

/-- Reads a text as a constant vector of the language. -/
def readVector? (s : String) : Option (Vec3 Word) :=
  (Phrase.ofTokens (Token.ofText s)).bind Phrase.constant?

theorem literal?_float {w : Word} (h : w.isFinite) : (Code.float w).phrase.literal? = some w := by
  have hnumeral : (Code.numeral w).literal? = some ⟨w.magnitude⟩ := by
    rw [Code.numeral, Phrase.literal?, String.toList_ofList, Word.ofChars_unsignedChars h]
    rfl
  rw [Code.phrase]
  split
  · next hsign =>
    rw [Phrase.literal?, hnumeral]
    exact congrArg (fun bits => some (Word.mk bits)) (Word.magnitude_or_sign hsign).2
  · next hsign => rw [hnumeral, Word.magnitude_eq hsign]

theorem ofTokens_text {c : Code} (hplain : c.plain) (hgrouped : c.grouped) :
    Phrase.ofTokens (Token.ofText c.text) = some c.phrase := by
  rw [(lexesTo_code hplain).ofText_eq, Phrase.ofTokens_code hgrouped]

theorem readNumber?_text {w : Word} (h : w.isFinite) : readNumber? w.text = some w := by
  have hread := ofTokens_text (c := .float w) rfl h
  rw [readNumber?, show w.text = (Code.float w).text from rfl, hread]
  exact literal?_float h

theorem readVector?_text {v : Vec3 Word} (h : (v.x.isFinite && v.y.isFinite && v.z.isFinite) = true) :
    readVector? (Code.vector v).text = some v := by
  rw [readVector?, ofTokens_text (plain_vector v) (grouped_vector h), Option.bind_some]
  rw [Bool.and_eq_true, Bool.and_eq_true] at h
  obtain ⟨⟨hx, hy⟩, hz⟩ := h
  unfold Code.vector
  split
  · next heq =>
    obtain ⟨x, y, z⟩ := v
    obtain ⟨rfl, rfl⟩ : x = y ∧ y = z := heq
    change (Code.float x).phrase.literal?.map Vec3.splat = _
    rw [literal?_float hx]
    rfl
  · have hlanes : (Code.builtin .vec3 [.float v.x, .float v.y, .float v.z]).phrase.constant? =
        (Code.float v.x).phrase.literal?.bind fun x => (Code.float v.y).phrase.literal?.bind
          fun y => (Code.float v.z).phrase.literal?.bind fun z => some ⟨x, y, z⟩ := rfl
    rw [hlanes, literal?_float hx, literal?_float hy, literal?_float hz]
    rfl

/-! ## Texts of constants -/

/-- The text of a finite number has a point or an exponent, and as a decimal with a sign it is read as
that number, bit by bit.  The decimal rounds to the number, and none with fewer digits does.  The text
of a finite vector is read as its lanes, whether it names them once or one by one, so different
constants have different texts. -/
theorem constants_read_back :
    (∀ w : Word, w.isFinite →
      ('.' ∈ (Code.float w).text.toList ∨ 'e' ∈ (Code.float w).text.toList) ∧
      Word.ofChars (Code.float w).text.toList = .ok w ∧ readNumber? (Code.float w).text = some w ∧
      (w.toReal = if w.isNegative then -(patternValue w.magnitude.toNat : ℝ)
        else patternValue w.magnitude.toNat) ∧
      ∃ cs d, (Code.float w).text.toList = (if w.isNegative then ['-'] else []) ++ cs ∧
        Numeral cs d ∧ Nearest w.magnitude.toNat d.value ∧ Shortest w.magnitude.toNat d) ∧
    (∀ {α : Type} (operand : α → Code) (v : Vec3 Word),
      (v.x.isFinite && v.y.isFinite && v.z.isFinite) = true →
      readVector? (opCode operand (.constant v)).text = some v) ∧
    (∀ w w' : Word, w.isFinite → w'.isFinite →
      (Code.float w).text = (Code.float w').text → w = w') ∧
    ∀ v v' : Vec3 Word, (v.x.isFinite && v.y.isFinite && v.z.isFinite) = true →
      (v'.x.isFinite && v'.y.isFinite && v'.z.isFinite) = true →
      (Code.vector v).text = (Code.vector v').text → v = v' := by
  refine ⟨fun w hw => ?_, fun operand v hv => readVector?_text hv, fun w w' hw hw' htext => ?_,
    fun v v' hv hv' htext => ?_⟩
  · have htext := Word.toList_text hw
    obtain ⟨d, hd, hnear, hshortest⟩ := exists_numeral (Word.magnitude_lt hw)
    refine ⟨?_, Word.ofChars_text hw, readNumber?_text hw, Word.toReal_eq hw, _, d, htext, hd, hnear,
      hshortest⟩
    change '.' ∈ w.text.toList ∨ 'e' ∈ w.text.toList
    rw [htext]
    exact (mem_unsignedChars _).imp (List.mem_append_right _) (List.mem_append_right _)
  · have hread := readNumber?_text hw
    rw [show w.text = w'.text from htext, readNumber?_text hw'] at hread
    exact (Option.some.inj hread).symm
  · have hread := readVector?_text hv
    rw [htext, readVector?_text hv'] at hread
    exact (Option.some.inj hread).symm

/-- The least positive number, and a vector whose lanes are equal as numbers but not as patterns. -/
theorem constants_read_back_zeros :
    Word.ofChars (Code.float ⟨1⟩).text.toList = .ok ⟨1⟩ ∧
      readVector? (opCode id (.constant ⟨⟨0x80000000⟩, ⟨0⟩, ⟨0⟩⟩)).text =
        some ⟨⟨0x80000000⟩, ⟨0⟩, ⟨0⟩⟩ ∧
      (Code.vector ⟨⟨0x80000000⟩, ⟨0⟩, ⟨0⟩⟩).text ≠ (Code.vector ⟨⟨0⟩, ⟨0⟩, ⟨0⟩⟩).text :=
  ⟨(constants_read_back.1 ⟨1⟩ (by decide)).2.1, constants_read_back.2.1 id _ (by decide),
    fun htext => absurd (constants_read_back.2.2.2 _ _ (by decide) (by decide) htext) (by decide)⟩

end Shader

end SphereTracer
