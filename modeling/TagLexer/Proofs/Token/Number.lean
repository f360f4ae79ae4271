import TagLexer.Proofs.Scan.Concat

/-!
# Number literals

A number literal has one of four forms: decimal digits with an optional exponent, or a zero, a
letter and digits of the base that the letter stands for. The second character tells the forms
apart, since no letter of a base is a decimal digit or starts an exponent. A text of one of these
forms is a word as a whole, so a scan never splits it (`numberLiteral_forms`).
-/

namespace TagLexer

/-- The forms of a number literal. -/
inductive NumberForm where
  | decimal | hexadecimal | octal | binary
  deriving DecidableEq, Repr

namespace NumberForm

/-- The digits of a form. -/
def digits : NumberForm → Text
  | decimal => ['0', '1', '2', '3', '4', '5', '6', '7', '8', '9']
  | hexadecimal =>
    ['0', '1', '2', '3', '4', '5', '6', '7', '8', '9', 'a', 'b', 'c', 'd', 'e', 'f', 'A', 'B', 'C',
      'D', 'E', 'F']
  | octal => ['0', '1', '2', '3', '4', '5', '6', '7']
  | binary => ['0', '1']

/-- The letters that may stand for the base of a form; a decimal literal has none. -/
def letters : NumberForm → Text
  | decimal => []
  | hexadecimal => ['x', 'X']
  | octal => ['o', 'O']
  | binary => ['b', 'B']

/-- One or more digits of a form. -/
structure AreDigits (form : NumberForm) (s : Text) : Prop where
  /-- There is a first digit. -/
  ne_nil : s ≠ []
  /-- Every character is a digit of the form. -/
  all : ∀ c ∈ s, c ∈ form.digits

/-- The literals of each form. -/
inductive Spells : NumberForm → Text → Prop
  | whole {s : Text} : decimal.AreDigits s → Spells decimal s
  | scaled {s sign exponent : Text} {e : Char} : decimal.AreDigits s → e ∈ ['e', 'E'] →
      sign ∈ [[], ['-']] → decimal.AreDigits exponent →
      Spells decimal (s ++ e :: (sign ++ exponent))
  | based {form : NumberForm} {letter : Char} {s : Text} : letter ∈ form.letters →
      form.AreDigits s → Spells form ('0' :: letter :: s)

/-- The form that the second character of a literal tells. -/
def ofSecond (c : Char) : NumberForm :=
  if c ∈ letters hexadecimal then hexadecimal
  else if c ∈ letters octal then octal
  else if c ∈ letters binary then binary
  else decimal

/-- The form that a literal has by its second character. -/
def ofText : Text → NumberForm
  | _ :: c :: _ => ofSecond c
  | _ => decimal

private theorem ofSecond_of_mem_digits {c : Char} (h : c ∈ decimal.digits) :
    ofSecond c = decimal := by
  have hall : decimal.digits.all fun c => ofSecond c = decimal := by decide
  simpa using List.all_eq_true.mp hall c h

private theorem ofSecond_of_mem_letters {form : NumberForm} {c : Char} (h : c ∈ form.letters) :
    ofSecond c = form := by
  have hall : form.letters.all fun c => ofSecond c = form := by cases form <;> decide
  simpa using List.all_eq_true.mp hall c h

/-- The second character of a literal tells its form. -/
theorem Spells.ofText_eq {form : NumberForm} {w : Text} (h : form.Spells w) : ofText w = form := by
  cases h with
  | whole hdigits =>
    rcases w with _ | ⟨a, _ | ⟨c, s⟩⟩
    · rfl
    · rfl
    · exact ofSecond_of_mem_digits (hdigits.all c (by simp))
  | @scaled front sign exponent e hdigits he =>
    -- The second character is a digit, or the letter of the exponent behind a single digit.
    rcases front with _ | ⟨a, _ | ⟨c, front⟩⟩
    · exact absurd rfl hdigits.ne_nil
    · have hall : ['e', 'E'].all fun c => ofSecond c = decimal := by decide
      have hsecond : ofSecond e = decimal := by simpa using List.all_eq_true.mp hall e he
      exact hsecond
    · exact ofSecond_of_mem_digits (hdigits.all c (by simp))
  | based hletter => exact ofSecond_of_mem_letters hletter

/-- The class of characters that the digits of a form are told by. -/
def isDigit : NumberForm → Char → Bool
  | decimal => isAsciiDigit
  | hexadecimal => isHexDigit
  | octal => isOctalDigit
  | binary => isBinaryDigit

/-- The class of a form holds exactly its digits. -/
theorem isDigit_iff {form : NumberForm} {c : Char} :
    form.isDigit c = true ↔ c ∈ form.digits := by
  cases form <;>
    simp only [isDigit, isAsciiDigit, isHexDigit, isOctalDigit, isBinaryDigit, digits,
      Bool.and_eq_true, Bool.or_eq_true, beq_iff_eq, decide_eq_true_eq, Char.le_def,
      UInt32.le_iff_toNat_le, Char.toNat_val, List.mem_cons, List.not_mem_nil, or_false,
      ← Char.toNat_inj, Char.reduceToNat] <;>
    omega

theorem nonemptyAll_isDigit_iff (form : NumberForm) {s : Text} :
    s.nonemptyAll form.isDigit = true ↔ form.AreDigits s := by
  simp only [Text.nonemptyAll, Bool.and_eq_true, Bool.not_eq_true', List.isEmpty_eq_false_iff,
    List.all_eq_true, isDigit_iff]
  exact ⟨fun h => ⟨h.1, h.2⟩, fun h => ⟨h.ne_nil, h.all⟩⟩

end NumberForm

namespace Text

open NumberForm

/-- What may follow the digits of a decimal literal. -/
theorem isExponentPart_iff {s : Text} :
    s.isExponentPart = true ↔
      s = [] ∨ ∃ e sign exponent, e ∈ ['e', 'E'] ∧ sign ∈ [[], ['-']] ∧
        decimal.AreDigits exponent ∧ s = e :: (sign ++ exponent) := by
  constructor
  · intro h
    cases s with
    | nil => exact .inl rfl
    | cons e rest =>
      simp only [isExponentPart, Bool.and_eq_true, Bool.or_eq_true, beq_iff_eq] at h
      obtain ⟨he, hrest⟩ := h
      refine .inr ?_
      split at hrest
      · next exponent =>
        exact ⟨e, ['-'], exponent, by simpa using he, by simp,
          (nonemptyAll_isDigit_iff decimal).mp hrest, rfl⟩
      · exact ⟨e, [], rest, by simpa using he, by simp,
          (nonemptyAll_isDigit_iff decimal).mp hrest, rfl⟩
  · rintro (rfl | ⟨e, sign, exponent, he, hsign, hexponent, rfl⟩)
    · rfl
    · have hdigits := (nonemptyAll_isDigit_iff decimal).mpr hexponent
      have he' : (e == 'e' || e == 'E') = true := by simpa using he
      simp only [List.mem_cons, List.not_mem_nil, or_false] at hsign
      rcases hsign with rfl | rfl
      · simp only [isExponentPart, he', Bool.true_and, List.nil_append]
        split
        · next exponent => exact absurd (hexponent.all '-' (by simp)) (by decide)
        · exact hdigits
      · simp only [isExponentPart, he', Bool.true_and, List.singleton_append]
        exact hdigits

/-- Decimal digits in front of anything else are taken off as a whole. -/
private theorem isDecimalLiteral_append {digits rest : Text} (h : decimal.AreDigits digits)
    (hstop : rest.Stops isAsciiDigit) :
    isDecimalLiteral (digits ++ rest) = rest.isExponentPart := by
  have hrun : MaximalRun isAsciiDigit digits rest :=
    ⟨fun c hc => isDigit_iff.mpr (h.all c hc), hstop⟩
  simp [isDecimalLiteral, hrun.takeWhile_eq, hrun.dropWhile_eq, h.ne_nil]

theorem isDecimalLiteral_iff {s : Text} : s.isDecimalLiteral = true ↔ decimal.Spells s := by
  constructor
  · intro h
    simp only [isDecimalLiteral, Bool.and_eq_true, Bool.not_eq_true',
      List.isEmpty_eq_false_iff] at h
    obtain ⟨hne, hexponent⟩ := h
    have hdigits : decimal.AreDigits (s.takeWhile isAsciiDigit) :=
      ⟨hne, fun c hc => isDigit_iff.mp (List.mem_takeWhile_imp hc)⟩
    rw [← List.takeWhile_append_dropWhile (p := isAsciiDigit) (l := s)]
    rcases isExponentPart_iff.mp hexponent with hnil | ⟨e, sign, exponent, he, hsign, hexp, hs⟩
    · rw [hnil, List.append_nil]
      exact .whole hdigits
    · rw [hs]
      exact .scaled hdigits he hsign hexp
  · intro h
    cases h with
    | whole hdigits =>
      rw [← List.append_nil s, isDecimalLiteral_append hdigits (by simp [Stops])]
      rfl
    | @scaled front sign exponent e hdigits he hsign hexponent =>
      rw [isDecimalLiteral_append hdigits]
      · exact isExponentPart_iff.mpr (.inr ⟨e, sign, exponent, he, hsign, hexponent, rfl⟩)
      · intro c hc
        obtain rfl : e = c := Option.some.inj hc
        have hall : ['e', 'E'].all fun c => isAsciiDigit c = false := by decide
        simpa using List.all_eq_true.mp hall e he
    | based hletter => cases hletter

theorem isRadixLiteral_iff {s : Text} :
    s.isRadixLiteral = true ↔ ∃ form letter digits, letter ∈ NumberForm.letters form ∧
      form.AreDigits digits ∧ s = '0' :: letter :: digits := by
  constructor
  · intro h
    unfold isRadixLiteral at h
    split at h
    · next letter digits =>
      simp only [Bool.or_eq_true, beq_iff_eq] at h
      split at h
      · next hletter =>
        exact ⟨hexadecimal, letter, digits, by simpa [letters] using hletter,
          (nonemptyAll_isDigit_iff hexadecimal).mp h, rfl⟩
      split at h
      · next hletter =>
        exact ⟨octal, letter, digits, by simpa [letters] using hletter,
          (nonemptyAll_isDigit_iff octal).mp h, rfl⟩
      split at h
      · next hletter =>
        exact ⟨binary, letter, digits, by simpa [letters] using hletter,
          (nonemptyAll_isDigit_iff binary).mp h, rfl⟩
      · cases h
    · cases h
  · rintro ⟨form, letter, digits, hletter, hdigits, rfl⟩
    have hall := (nonemptyAll_isDigit_iff form).mpr hdigits
    cases form with
    | decimal => cases hletter
    | _ =>
      simp only [letters, List.mem_cons, List.not_mem_nil, or_false] at hletter
      rcases hletter with rfl | rfl <;> exact hall

/-- The number literals are the literals of the four forms. -/
theorem isNumberLiteral_iff {w : Text} :
    w.isNumberLiteral = true ↔ ∃ form : NumberForm, form.Spells w := by
  rw [isNumberLiteral, Bool.or_eq_true, isDecimalLiteral_iff, isRadixLiteral_iff]
  constructor
  · rintro (hdecimal | ⟨form, letter, digits, hletter, hdigits, rfl⟩)
    · exact ⟨decimal, hdecimal⟩
    · exact ⟨form, .based hletter hdigits⟩
  · rintro ⟨form, h⟩
    cases h with
    | whole hdigits => exact .inl (.whole hdigits)
    | scaled hdigits he hsign hexponent => exact .inl (.scaled hdigits he hsign hexponent)
    | based hletter hdigits => exact .inr ⟨form, _, _, hletter, hdigits, rfl⟩

end Text

/-- A number literal before the end or before a character that words are not made of is the first
segment. -/
theorem Scan.of_number_append {w t : Text} (h : w.isNumberLiteral = true)
    (ht : t.Stops isWordChar) :
    Scan.of (w ++ t) =
      { tokens := [⟨w, .number⟩], notes := [] } ++ (Scan.of t).shift w.length := by
  have hfits : (Segment.word w).Fits t := ⟨Text.isWord_of_isNumberLiteral h, ht⟩
  have hscan := Scan.of_append hfits
  rwa [Segment.scan, Segment.token?, Kind.ofWord_of_isNumberLiteral h] at hscan

/-- A text is a number literal exactly if it has one of the four forms, no text has two of them, and
before the end or before a character that words are not made of a number literal is scanned as one
number. -/
theorem numberLiteral_forms (w : Text) :
    (w.isNumberLiteral = true ↔ ∃ form : NumberForm, form.Spells w) ∧
      (∀ form other : NumberForm, form.Spells w → other.Spells w → form = other) ∧
      (w.isNumberLiteral = true → ∀ t : Text, t.Stops isWordChar →
        (Scan.of (w ++ t)).tokens.head? = some ⟨w, .number⟩) := by
  refine ⟨Text.isNumberLiteral_iff, ?_, ?_⟩
  · intro form other h h'
    exact h.ofText_eq.symm.trans h'.ofText_eq
  · intro h t ht
    rw [Scan.of_number_append h ht]
    rfl

/-- The hyphen of an exponent does not end the literal. -/
theorem numberLiteral_forms_negative_exponent :
    Text.isNumberLiteral "0e-1".toList = true ∧
      (Scan.of ("0e-1".toList ++ "/>".toList)).tokens.head? =
        some ⟨"0e-1".toList, .number⟩ := by
  have hzero : NumberForm.decimal.AreDigits ['0'] := ⟨by decide, by simp [NumberForm.digits]⟩
  have hone : NumberForm.decimal.AreDigits ['1'] := ⟨by decide, by simp [NumberForm.digits]⟩
  have hspells : NumberForm.decimal.Spells (['0'] ++ 'e' :: (['-'] ++ ['1'])) :=
    .scaled hzero (by decide) (by decide) hone
  obtain ⟨hiff, -, hscan⟩ := numberLiteral_forms "0e-1".toList
  have hliteral := hiff.mpr ⟨_, hspells⟩
  exact ⟨hliteral, hscan hliteral "/>".toList (by decide)⟩

end TagLexer
