import SphereTracer.Proofs.Decimal.Written
import SphereTracer.Shader.Functions

/-!
# Tokens of shader code

The source of a kernel as a reader of the language sees it: words and signs, without blanks and
comments.  A line ends whatever stands before it, so the tokens of a text are those of its lines.
-/

namespace SphereTracer.Shader

/-- Names, keywords, numbers and the types of vectors are words; every other character is a sign of
its own. -/
inductive Token where
  | word (text : String)
  | sign (c : Char)
  deriving DecidableEq, Repr

namespace Token

def isWordChar (c : Char) : Bool := c.isAlphanum || c = '_'

/-- Whether a character continues a word.  A number may have a point, and a sign right behind the
letter of its exponent; `vec3<f32>` is one word. -/
def continues : List Char → Char → Bool
  | [], c => isWordChar c
  | first :: rest, c => isWordChar c ||
    first.isDigit && (c = '.' || (c = '-' || c = '+') && (first :: rest).getLast? = some 'e') ||
    c = '<' && ["vec2", "vec3", "vec4"].any (·.toList = first :: rest) || c = '>' && rest.contains '<'

def flush (word : List Char) : List Token :=
  if word.isEmpty then [] else [.word (String.ofList word)]

/-- Reads tokens, given whether the text begins within a comment, and else the word that it goes on
with.  A comment goes to the end of its line. -/
def scan (comment : Bool) (word : List Char) : List Char → List Token
  | [] => flush word
  | c :: rest =>
    if comment then scan (c ≠ '\n') [] rest
    else if continues word c then scan false (word ++ [c]) rest
    else if c = '/' ∧ rest.head? = some '/' then flush word ++ scan true [] rest
    else flush word ++ (if c.isWhitespace then [] else [.sign c]) ++ scan false [] rest

/-- The tokens of a text. -/
def ofText (s : String) : List Token := scan false [] s.toList

/-! ## Words -/

theorem continues_of_isWordChar {word : List Char} {c : Char} (h : isWordChar c) :
    continues word c := by
  cases word <;> simp [continues, h]

/-- Whether all characters of a text continue a word. -/
def joins (word : List Char) : List Char → Bool
  | [] => true
  | c :: rest => continues word c && joins (word ++ [c]) rest

theorem joins_append {word cs cs' : List Char} :
    joins word (cs ++ cs') = (joins word cs && joins (word ++ cs) cs') := by
  induction cs generalizing word with
  | nil => simp [joins]
  | cons c cs ih => simp [joins, ih, Bool.and_assoc]

theorem joins_of_isWordChar {word cs : List Char} (h : ∀ c ∈ cs, isWordChar c) :
    joins word cs := by
  induction cs generalizing word with
  | nil => rfl
  | cons c cs ih =>
    rw [List.forall_mem_cons] at h
    rw [joins, continues_of_isWordChar h.1, ih h.2]
    rfl

theorem scan_joins {word cs rest : List Char} (h : joins word cs) :
    scan false word (cs ++ rest) = scan false (word ++ cs) rest := by
  induction cs generalizing word with
  | nil => simp
  | cons c cs ih =>
    rw [joins, Bool.and_eq_true] at h
    rw [List.cons_append, scan, if_neg (by simp), if_pos h.1, ih h.2]
    simp

theorem scan_word {cs rest : List Char} (hne : cs ≠ []) (hjoins : joins [] cs)
    (hrest : ∀ c ∈ rest.head?, continues cs c = false) :
    scan false [] (cs ++ rest) = .word (String.ofList cs) :: scan false [] rest := by
  rw [scan_joins hjoins, List.nil_append]
  have hflush : flush cs = [.word (String.ofList cs)] := by simp [flush, hne]
  cases rest with
  | nil => rw [scan, scan, hflush]; rfl
  | cons c rest =>
    have hstop := hrest c rfl
    have hstop' : continues [] c = false := by
      by_contra h
      rw [continues_of_isWordChar (eq_true_of_ne_false h)] at hstop
      exact absurd hstop (by decide)
    rw [scan, scan, hstop, hstop', hflush]
    simp only [Bool.false_eq_true, if_false]
    split
    · rfl
    · rfl

/-- What ends any word. -/
def stops (c : Char) : Bool := !isWordChar c && !(['.', '-', '+', '<', '>'].contains c)

theorem continues_of_stops {c : Char} (h : stops c) (word : List Char) :
    continues word c = false := by
  simp only [stops, List.contains_cons, List.contains_nil, Bool.or_false, Bool.and_eq_true,
    Bool.not_eq_true', Bool.or_eq_false_iff, beq_eq_false_iff_ne] at h
  obtain ⟨hword, hpoint, hminus, hplus, hless, hgreater⟩ := h
  cases word <;> simp [continues, *]

/-! ## Numbers and names -/

theorem joins_of_isDigit {word cs : List Char} (h : ∀ c ∈ cs, c.isDigit) : joins word cs :=
  joins_of_isWordChar fun c hc => by simp [isWordChar, Char.isAlphanum, h c hc]

/-- A numeral is one word. -/
theorem joins_numeral {cs : List Char} {d : Decimal} (h : Decimal.Numeral cs d) : joins [] cs := by
  obtain ⟨whole, fraction, hne, hwhole, hfraction, hrest⟩ := h
  obtain ⟨c, whole, rfl⟩ := List.exists_cons_of_ne_nil hne
  have hc := hwhole c List.mem_cons_self
  rw [joins_append, joins_append, joins_of_isDigit hwhole, Bool.true_and, Bool.and_eq_true]
  constructor
  · unfold Decimal.point
    split
    · rfl
    · rw [joins, Bool.and_eq_true]
      exact ⟨by simp [continues, hc], joins_of_isDigit hfraction⟩
  · cases hrest with
    | none => rfl
    | positive _ hds =>
      rw [joins, joins_of_isDigit hds, Bool.and_true]
      exact continues_of_isWordChar rfl
    | negative _ hds =>
      have hlast : (c :: (whole ++ (Decimal.point fraction ++ ['e']))).getLast? = some 'e' := by
        rw [← List.append_assoc, ← List.cons_append, List.getLast?_concat]
      rw [joins, joins, joins_of_isDigit hds, Bool.and_true, Bool.and_eq_true]
      exact ⟨continues_of_isWordChar rfl, by simp [continues, hc, hlast]⟩

theorem scan_numeral {cs rest : List Char} {d : Decimal} (h : Decimal.Numeral cs d)
    (hrest : ∀ c ∈ rest.head?, stops c) :
    scan false [] (cs ++ rest) = .word (String.ofList cs) :: scan false [] rest := by
  obtain ⟨c, cs', heq, -⟩ := h.exists_cons
  exact scan_word (by simp [heq]) (joins_numeral h) fun c hc => continues_of_stops (hrest c hc) cs

theorem scan_digits (n : ℕ) {rest : List Char} (hrest : ∀ c ∈ rest.head?, stops c) :
    scan false [] ((toString n).toList ++ rest) = .word (toString n) :: scan false [] rest := by
  have hscan := scan_word (Decimal.digitChars_ne_nil n)
    (joins_of_isDigit Decimal.isDigit_of_mem_digitChars) fun c hc => continues_of_stops (hrest c hc) _
  rwa [Decimal.digitChars, String.ofList_toList] at hscan

/-- Whether a text is a name: letters, digits and underscores, no digit in front, and not the keyword
of functions. -/
def isName (s : String) : Bool :=
  s ≠ "fn" && match s.toList with
  | [] => false
  | c :: rest => !c.isDigit && (c :: rest).all isWordChar

/-- A name, where it may be followed by a point. -/
theorem scan_name {s : String} {rest : List Char} (h : isName s)
    (hrest : ∀ c ∈ rest.head?, stops c ∨ c = '.') :
    scan false [] (s.toList ++ rest) = .word s :: scan false [] rest := by
  rw [isName, Bool.and_eq_true] at h
  obtain ⟨-, h⟩ := h
  split at h
  · exact absurd h (by decide)
  · next c cs heq =>
    rw [Bool.and_eq_true, List.all_eq_true, Bool.not_eq_true'] at h
    obtain ⟨hdigit, hall⟩ := h
    rw [heq, scan_word (by simp) (joins_of_isWordChar hall), ← heq, String.ofList_toList]
    intro c' hc'
    rcases hrest c' hc' with hstop | rfl
    · exact continues_of_stops hstop _
    · simp [continues, hdigit, isWordChar]

/-- A name goes on with further letters, digits and underscores. -/
theorem isName_append {s s' : String} (hs : isName s) (hkeyword : s.toList.head? ≠ some 'f')
    (hs' : ∀ c ∈ s'.toList, isWordChar c) : isName (s ++ s') := by
  rw [isName, Bool.and_eq_true] at hs ⊢
  obtain ⟨-, hs⟩ := hs
  split at hs
  · exact absurd hs (by decide)
  · next c rest heq =>
    rw [String.toList_append, heq, List.cons_append]
    simp only [Bool.and_eq_true, List.all_eq_true, List.mem_cons, List.mem_append,
      decide_eq_true_eq] at hs ⊢
    refine ⟨fun hfn => hkeyword ?_, hs.1, fun c' hc' => ?_⟩
    · have hchars := congrArg String.toList hfn
      rw [String.toList_append, heq] at hchars
      rw [heq, (List.cons.inj hchars).1]
      rfl
    · rw [← or_assoc] at hc'
      exact hc'.elim (hs.2 c') (hs' c')

/-! ## Lines -/

theorem scan_append_line {comment : Bool} {word : List Char} (h : comment → word = [])
    (cs rest : List Char) :
    scan comment word (cs ++ '\n' :: rest) = scan comment word cs ++ scan false [] rest := by
  -- By induction on the text; the comment and the word that it stands in change with each
  -- character.
  induction cs generalizing comment word with
  | nil =>
    have hend : continues word '\n' = false := continues_of_stops rfl word
    cases comment with
    | true => rw [h rfl]; rfl
    | false => simp [scan, hend]
  | cons c cs ih =>
    have hhead : (cs ++ '\n' :: rest).head? = some '/' ↔ cs.head? = some '/' := by
      cases cs <;> simp
    simp only [List.cons_append, scan, hhead, List.append_assoc]
    split
    · exact ih fun _ => rfl
    · split
      · exact ih (by simp)
      · split <;> simp [ih]

/-- A line has its tokens, whatever follows it. -/
theorem ofText_line (s s' : String) : ofText (s ++ "\n" ++ s') = ofText s ++ ofText s' := by
  simp only [ofText, String.toList_append, List.append_assoc]
  exact scan_append_line (by simp) _ _

end Token

end SphereTracer.Shader
