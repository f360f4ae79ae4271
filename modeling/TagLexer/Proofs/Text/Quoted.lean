import TagLexer.Text.Quoted

/-!
# What quoted text is made of

A quoted text holds printable characters only: every other character of the text is escaped, and
escapes are made of backslashes, letters and digits. So a quoted text never ends a line.
-/

namespace TagLexer.Text

/-- The digits of a numeral in a base are those of the numbers below the base. -/
theorem exists_digitChar_of_mem_toDigits {b n : Nat} (hb : 1 < b) {c : Char}
    (h : c ∈ Nat.toDigits b n) : ∃ d < b, c = d.digitChar := by
  induction n using Nat.strongRecOn with
  | ind n ih =>
    rw [Nat.toDigits_eq_if hb] at h
    split at h
    · next hn => exact ⟨n, hn, List.mem_singleton.mp h⟩
    · next hn =>
      have hlt : n / b < n := Nat.div_lt_self (by omega) hb
      rcases List.mem_append.mp h with h | h
      · exact ih (n / b) hlt h
      · exact ⟨n % b, Nat.mod_lt n (by omega), List.mem_singleton.mp h⟩

private theorem isPrintable_digitChar {d : Nat} (h : d < 16) : isPrintable d.digitChar = true := by
  have hall : (List.range 16).all fun d => isPrintable d.digitChar := by decide +kernel
  exact List.all_eq_true.mp hall d (List.mem_range.mpr h)

/-- The characters of a hexadecimal numeral are printable. -/
theorem isPrintable_of_mem_hex {width n : Nat} {c : Char} (h : c ∈ hex width n) :
    isPrintable c = true := by
  rcases List.mem_append.mp h with h | h
  · rw [(List.mem_replicate.mp h).2]
    decide +kernel
  · obtain ⟨d, hd, rfl⟩ := exists_digitChar_of_mem_toDigits (by decide) h
    exact isPrintable_digitChar hd

/-- The characters of an escape by code point are printable. -/
theorem isPrintable_of_mem_escapeCode {n : Nat} {c : Char} (h : c ∈ escapeCode n) :
    isPrintable c = true := by
  have hsign : ∀ {letter : Char} {width : Nat}, isPrintable letter = true →
      c ∈ '\\' :: letter :: hex width n → isPrintable c = true := by
    intro letter width hletter hmem
    rcases List.mem_cons.mp hmem with rfl | hmem
    · decide +kernel
    rcases List.mem_cons.mp hmem with rfl | hmem
    · exact hletter
    · exact isPrintable_of_mem_hex hmem
  unfold escapeCode at h
  split at h
  · exact hsign (by decide +kernel) h
  split at h
  · exact hsign (by decide +kernel) h
  · exact hsign (by decide +kernel) h

/-- A character between printable delimiters is shown by printable characters. -/
theorem isPrintable_of_mem_escapeChar {delimiter d c : Char} (hd : isPrintable delimiter = true)
    (h : c ∈ escapeChar delimiter d) : isPrintable c = true := by
  have hpair : ∀ {letter : Char}, isPrintable letter = true → c ∈ ['\\', letter] →
      isPrintable c = true := by
    intro letter hletter hmem
    rcases List.mem_cons.mp hmem with rfl | hmem
    · decide +kernel
    · rwa [List.mem_singleton.mp hmem]
  unfold escapeChar at h
  split at h
  · next hor =>
    refine hpair ?_ h
    simp only [Bool.or_eq_true, decide_eq_true_eq] at hor
    rcases hor with rfl | rfl
    · decide +kernel
    · exact hd
  split at h
  · exact hpair (by decide +kernel) h
  split at h
  · exact hpair (by decide +kernel) h
  split at h
  · exact hpair (by decide +kernel) h
  split at h
  · next hprintable => rwa [List.mem_singleton.mp h]
  · exact isPrintable_of_mem_escapeCode h

theorem isPrintable_delimiter (s : Text) : isPrintable s.delimiter = true := by
  unfold delimiter
  split <;> decide +kernel

/-- A quoted text is made of printable characters. -/
theorem isPrintable_of_mem_quoted {s : Text} {c : Char} (h : c ∈ s.quoted) :
    isPrintable c = true := by
  have hdelimiter := isPrintable_delimiter s
  rcases List.mem_cons.mp h with rfl | h
  · exact hdelimiter
  rcases List.mem_append.mp h with h | h
  · obtain ⟨d, -, hd⟩ := List.mem_flatMap.mp h
    exact isPrintable_of_mem_escapeChar hdelimiter hd
  · rwa [List.mem_singleton.mp h]

end TagLexer.Text
