import TagLexer.Proofs.Text.Classes

/-!
# Words and their kinds

A word is a number, a reserved word or an identifier, and the three exclude one another. Every
number literal and every reserved word has the shape of a word: it is not empty, holds word
characters only and does not start with a hyphen.
-/

namespace TagLexer

namespace Keyword

/-- The table of keywords holds every reserved word. -/
theorem mem_all (k : Keyword) : k ∈ all := by
  cases k <;> decide

/-- A look-up finds every reserved word by its spelling. -/
theorem ofText?_spelling (k : Keyword) : ofText? k.spelling = some k := by
  cases k <;> decide

/-- A reserved word that a look-up finds has that spelling. -/
theorem spelling_of_ofText? {w : Text} {k : Keyword} (h : ofText? w = some k) : k.spelling = w := by
  have hk := List.find?_some h
  simpa using hk

/-- A look-up fails only on texts that spell no reserved word. -/
theorem spelling_ne_of_ofText? {w : Text} (h : ofText? w = none) (k : Keyword) :
    k.spelling ≠ w := by
  have hk := List.find?_eq_none.mp h k (mem_all k)
  simpa using hk

/-- No reserved word is a number literal. -/
theorem isNumberLiteral_spelling (k : Keyword) : k.spelling.isNumberLiteral = false := by
  cases k <;> decide

end Keyword

namespace Kind

/-- A number literal forms a number. -/
theorem ofWord_of_isNumberLiteral {w : Text} (h : w.isNumberLiteral = true) :
    ofWord w = .number := by
  rw [ofWord, if_pos h]

/-- The spelling of a reserved word forms its keyword. -/
theorem ofWord_spelling (k : Keyword) : ofWord k.spelling = .keyword k := by
  rw [ofWord, if_neg (by simp [k.isNumberLiteral_spelling]), k.ofText?_spelling]

/-- A word that is neither a number literal nor reserved forms an identifier. -/
theorem ofWord_of_plain {w : Text} (hn : w.isNumberLiteral = false)
    (hk : ∀ k : Keyword, k.spelling ≠ w) : ofWord w = .identifier := by
  have hnone : Keyword.ofText? w = none := by
    cases h : Keyword.ofText? w with
    | none => rfl
    | some k => exact absurd (Keyword.spelling_of_ofText? h) (hk k)
  rw [ofWord, if_neg (by simp [hn]), hnone]

/-- Every word is a number literal, a reserved word or neither. -/
theorem word_cases (w : Text) :
    w.isNumberLiteral = true ∨ (∃ k : Keyword, k.spelling = w) ∨
      (w.isNumberLiteral = false ∧ ∀ k : Keyword, k.spelling ≠ w) := by
  cases hn : w.isNumberLiteral with
  | true => exact Or.inl rfl
  | false =>
    cases hk : Keyword.ofText? w with
    | none => exact Or.inr (Or.inr ⟨rfl, Keyword.spelling_ne_of_ofText? hk⟩)
    | some k => exact Or.inr (Or.inl ⟨k, Keyword.spelling_of_ofText? hk⟩)

/-- A word never forms a string literal. -/
theorem ofWord_ne_stringLiteral (w : Text) : ofWord w ≠ .stringLiteral := by
  rcases word_cases w with hn | ⟨k, rfl⟩ | ⟨hn, hk⟩
  · simp [ofWord_of_isNumberLiteral hn]
  · simp [ofWord_spelling]
  · simp [ofWord_of_plain hn hk]

end Kind

namespace Text

/-- The shape of a word: not empty, of word characters only, and not starting with a hyphen. -/
structure IsWord (w : Text) : Prop where
  /-- There is a first character. -/
  ne_nil : w ≠ []
  /-- The first character is no hyphen. -/
  head : w.head? ≠ some '-'
  /-- Every character is part of words. -/
  all : ∀ c ∈ w, isWordChar c = true

instance (w : Text) : Decidable w.IsWord :=
  decidable_of_iff (w ≠ [] ∧ w.head? ≠ some '-' ∧ w.all isWordChar = true)
    ⟨fun h => ⟨h.1, h.2.1, List.all_eq_true.mp h.2.2⟩,
      fun h => ⟨h.ne_nil, h.head, List.all_eq_true.mpr h.all⟩⟩

private theorem isWordChar_of_isAsciiDigit {c : Char} (h : isAsciiDigit c = true) :
    isWordChar c = true := by
  simp [isWordChar, h]

private theorem isWordChar_of_isHexDigit {c : Char} (h : isHexDigit c = true) :
    isWordChar c = true := by
  simp only [isHexDigit, Bool.or_eq_true, Bool.and_eq_true, decide_eq_true_eq] at h
  have hcased : ∀ low high : Nat, (low, high) ∈ casedRanges → low ≤ c.toNat → c.toNat ≤ high →
      isWordChar c = true := by
    intro low high hmem hlow hhigh
    have hc : isCased c = true := List.any_eq_true.mpr ⟨(low, high), hmem, by simp [hlow, hhigh]⟩
    simp [isWordChar, hc]
  rcases h with (hdigit | ⟨hlow, hhigh⟩) | ⟨hlow, hhigh⟩
  · exact isWordChar_of_isAsciiDigit hdigit
  · exact hcased 0x61 0x7A (by decide) hlow (Nat.le_trans hhigh (by decide))
  · exact hcased 0x41 0x5A (by decide) hlow (Nat.le_trans hhigh (by decide))

private theorem isWordChar_of_isOctalDigit {c : Char} (h : isOctalDigit c = true) :
    isWordChar c = true := by
  simp only [isOctalDigit, Bool.and_eq_true, decide_eq_true_eq] at h
  have hdigit : isAsciiDigit c = true := by
    simp only [isAsciiDigit, Bool.and_eq_true, decide_eq_true_eq]
    exact ⟨h.1, Nat.le_trans h.2 (by decide)⟩
  exact isWordChar_of_isAsciiDigit hdigit

private theorem isWordChar_of_isBinaryDigit {c : Char} (h : isBinaryDigit c = true) :
    isWordChar c = true := by
  simp only [isBinaryDigit, Bool.or_eq_true, beq_iff_eq] at h
  rcases h with rfl | rfl <;> decide

/-- Digits of a class that words are made of are word characters. -/
private theorem all_of_nonemptyAll {p : Char → Bool} (hp : ∀ {c}, p c = true → isWordChar c = true)
    {digits : Text} (h : nonemptyAll p digits = true) : ∀ c ∈ digits, isWordChar c = true := by
  simp only [nonemptyAll, Bool.and_eq_true, List.all_eq_true] at h
  exact fun c hc => hp (h.2 c hc)

private theorem all_of_isExponentPart {s : Text} (h : isExponentPart s = true) :
    ∀ c ∈ s, isWordChar c = true := by
  cases s with
  | nil => simp
  | cons e rest =>
    simp only [isExponentPart, Bool.and_eq_true, Bool.or_eq_true, beq_iff_eq] at h
    obtain ⟨he, hrest⟩ := h
    have hhead : isWordChar e = true := by
      rcases he with rfl | rfl <;> decide
    have htail : ∀ c ∈ rest, isWordChar c = true := by
      split at hrest
      · exact List.forall_mem_cons.mpr
          ⟨by decide, all_of_nonemptyAll isWordChar_of_isAsciiDigit hrest⟩
      · exact all_of_nonemptyAll isWordChar_of_isAsciiDigit hrest
    exact List.forall_mem_cons.mpr ⟨hhead, htail⟩

private theorem isWord_of_isDecimalLiteral {w : Text} (h : w.isDecimalLiteral = true) :
    w.IsWord := by
  simp only [isDecimalLiteral, Bool.and_eq_true] at h
  obtain ⟨hdigits, hexp⟩ := h
  have hall : ∀ c ∈ w, isWordChar c = true := by
    rw [← List.takeWhile_append_dropWhile (p := isAsciiDigit) (l := w)]
    intro c hc
    rcases List.mem_append.mp hc with hc | hc
    · exact isWordChar_of_isAsciiDigit (List.mem_takeWhile_imp hc)
    · exact all_of_isExponentPart hexp c hc
  -- The digits in front are not empty, so the first character is one of them.
  cases w with
  | nil => simp at hdigits
  | cons c w =>
    refine ⟨List.cons_ne_nil c w, ?_, hall⟩
    intro hc
    obtain rfl : c = '-' := by simpa using hc
    simp [isAsciiDigit] at hdigits

private theorem isWord_of_isRadixLiteral {w : Text} (h : w.isRadixLiteral = true) : w.IsWord := by
  unfold isRadixLiteral at h
  split at h
  · next base digits =>
    have hrest : isWordChar base = true ∧ ∀ c ∈ digits, isWordChar c = true := by
      simp only [Bool.or_eq_true, beq_iff_eq] at h
      split at h
      · next hb =>
        exact ⟨by rcases hb with rfl | rfl <;> decide,
          all_of_nonemptyAll isWordChar_of_isHexDigit h⟩
      split at h
      · next hb =>
        exact ⟨by rcases hb with rfl | rfl <;> decide,
          all_of_nonemptyAll isWordChar_of_isOctalDigit h⟩
      split at h
      · next hb =>
        exact ⟨by rcases hb with rfl | rfl <;> decide,
          all_of_nonemptyAll isWordChar_of_isBinaryDigit h⟩
      · cases h
    refine ⟨List.cons_ne_nil _ _, by simp, ?_⟩
    exact List.forall_mem_cons.mpr ⟨by decide, List.forall_mem_cons.mpr hrest⟩
  · cases h

/-- A number literal has the shape of a word. -/
theorem isWord_of_isNumberLiteral {w : Text} (h : w.isNumberLiteral = true) : w.IsWord := by
  simp only [isNumberLiteral, Bool.or_eq_true] at h
  rcases h with hdecimal | hradix
  · exact isWord_of_isDecimalLiteral hdecimal
  · exact isWord_of_isRadixLiteral hradix

end Text

/-- The reserved words have the shape of words. -/
theorem Keyword.isWord_spelling (k : Keyword) : k.spelling.IsWord := by
  cases k <;> decide

end TagLexer
