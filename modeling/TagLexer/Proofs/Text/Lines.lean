import TagLexer.Diagnostic
import TagLexer.Proofs.Text.Newline

/-!
# Lines

Line feeds split a text into lines. What stands before a place ends in the last line of that part,
which is the start of the line of the place, and the lines before it make up the rest of that part
(`Text.exists_splitOn_append`). So a line and a character in it name a place of the text, and places
follow each other in the order of the text (`Place.before_of_append`).
-/

namespace TagLexer

namespace Text

/-- The first line of a text. -/
def firstLine (s : Text) : Text := s.takeWhile (· != '\n')

/-- The last line of a text. -/
def lastLine (s : Text) : Text := (s.reverse.takeWhile (· != '\n')).reverse

theorem newline_not_mem_firstLine (s : Text) : '\n' ∉ s.firstLine := by
  intro hmem
  simpa using List.mem_takeWhile_imp hmem

theorem newline_not_mem_lastLine (s : Text) : '\n' ∉ s.lastLine := by
  intro hmem
  simpa using List.mem_takeWhile_imp (List.mem_reverse.mp hmem)

/-- Behind the first line stands nothing or a line feed. -/
theorem firstLine_cases (s : Text) :
    s = s.firstLine ∨ ∃ rest, s = s.firstLine ++ '\n' :: rest := by
  have hsplit := List.takeWhile_append_dropWhile (p := (· != '\n')) (l := s)
  cases hdrop : s.dropWhile (· != '\n') with
  | nil =>
    rw [hdrop, List.append_nil] at hsplit
    exact .inl hsplit.symm
  | cons c rest =>
    have hc := (MaximalRun.of_takeWhile (· != '\n') s).stop c (by rw [hdrop]; rfl)
    obtain rfl : c = '\n' := by simpa using hc
    rw [hdrop] at hsplit
    exact .inr ⟨rest, hsplit.symm⟩

/-- Before the last line stands nothing or a line feed. -/
theorem lastLine_cases (s : Text) :
    s = s.lastLine ∨ ∃ front, s = front ++ '\n' :: s.lastLine := by
  have hlast : s.lastLine = (firstLine s.reverse).reverse := rfl
  rcases firstLine_cases s.reverse with h | ⟨rest, h⟩
  · left
    rw [hlast, ← h, List.reverse_reverse]
  · right
    refine ⟨rest.reverse, ?_⟩
    have hreverse := congrArg List.reverse h
    rw [hlast]
    simpa using hreverse

/-- A text without line feeds is put behind the last line. -/
theorem lastLine_append_of_not_mem (s : Text) {t : Text} (h : '\n' ∉ t) :
    lastLine (s ++ t) = s.lastLine ++ t := by
  have hall : ∀ c ∈ t.reverse, (c != '\n') = true := by
    intro c hc
    have hne : c ≠ '\n' := fun he => h (he ▸ List.mem_reverse.mp hc)
    simpa using hne
  rw [lastLine, List.reverse_append, List.takeWhile_append_of_pos hall, List.reverse_append,
    List.reverse_reverse, lastLine]

/-- There is one line more than there are line feeds. -/
theorem length_splitOn_newline (s : Text) : (s.splitOn '\n').length = s.count '\n' + 1 := by
  induction s with
  | nil => rfl
  | cons c s ih =>
    rw [List.splitOn_cons_eq_if_modifyHead]
    by_cases hc : c = '\n'
    · simp [hc, ih]
    · simp [hc, ih]

/-- Lines with their ends: a line feed behind each of them. -/
def ended (lines : List Text) : Text := lines.flatMap (· ++ ['\n'])

/-- The lines of a text with their ends make up the text and the end of its last line. -/
theorem ended_splitOn_newline (s : Text) : ended (s.splitOn '\n') = s ++ ['\n'] := by
  induction s with
  | nil => rfl
  | cons c s ih =>
    rw [List.splitOn_cons_eq_if_modifyHead]
    by_cases hc : c = '\n'
    · simpa [hc, ended] using ih
    · obtain ⟨line, lines, hlines⟩ := List.exists_cons_of_ne_nil (List.splitOn_ne_nil '\n' s)
      simpa [hc, hlines, ended] using ih

/-- Lines with their ends are split into these lines and an empty last one. -/
theorem splitOn_ended {lines : List Text} (h : ∀ chars ∈ lines, '\n' ∉ chars) :
    (ended lines).splitOn '\n' = lines ++ [[]] := by
  induction lines with
  | nil => rfl
  | cons first lines ih =>
    obtain ⟨hfirst, hlines⟩ := List.forall_mem_cons.mp h
    have hcons : ended (first :: lines) = first ++ '\n' :: ended lines :=
      List.append_assoc first ['\n'] (ended lines)
    rw [hcons, List.splitOn_append_cons_self_of_not_mem hfirst, ih hlines]
    rfl

/-- A text without line feeds is put in front of the first line. -/
private theorem splitOn_append_of_not_mem {s : Text} (h : '\n' ∉ s) (t : Text) :
    ∃ lines, (s ++ t).splitOn '\n' = (s ++ t.firstLine) :: lines := by
  have hfirst : '\n' ∉ s ++ t.firstLine := List.not_mem_append h t.newline_not_mem_firstLine
  rcases t.firstLine_cases with ht | ⟨rest, ht⟩
  · exact ⟨[], by rw [← ht] at hfirst ⊢; exact List.splitOn_eq_singleton hfirst⟩
  · refine ⟨rest.splitOn '\n', ?_⟩
    rw [← List.splitOn_append_cons_self_of_not_mem hfirst rest, List.append_assoc, ← ht]

/-- The line of a place starts with the last line of what stands before the place and goes on with
the first line of what stands behind it. The lines before it and their ends make up the rest of what
stands before the place. -/
theorem exists_splitOn_append (s t : Text) :
    ∃ before after, (s ++ t).splitOn '\n' = before ++ (s.lastLine ++ t.firstLine) :: after ∧
      before.length = s.count '\n' ∧ ended before ++ s.lastLine = s := by
  have hline := s.newline_not_mem_lastLine
  have hcases := s.lastLine_cases
  generalize s.lastLine = line at hline hcases ⊢
  obtain ⟨after, hafter⟩ := splitOn_append_of_not_mem hline t
  have hcount : line.count '\n' = 0 := List.count_eq_zero.mpr hline
  rcases hcases with rfl | ⟨front, rfl⟩
  · exact ⟨[], after, hafter, hcount.symm, rfl⟩
  · refine ⟨front.splitOn '\n', after, ?_, ?_, ?_⟩
    · rw [List.append_assoc, List.cons_append, List.splitOn_append_cons_self, hafter]
    · rw [length_splitOn_newline, List.count_append, List.count_cons_self, hcount]
    · rw [ended_splitOn_newline, List.append_assoc, List.singleton_append]

/-- The character that stands at a place of a text. -/
def charAt? (s : Text) (p : Place) : Option Char :=
  (s.splitOn '\n')[p.line]?.bind fun chars => chars[p.character]?

/-- The offset of a place of a text: what the lines before it take with their ends, and its place in
its line. -/
def offsetOf (s : Text) (p : Place) : Nat :=
  (ended ((s.splitOn '\n').take p.line)).length + p.character

end Text

namespace Place

/-- One place comes before another: on an earlier line, or earlier on the same line. -/
def Before (p q : Place) : Prop :=
  p.line < q.line ∨ p.line = q.line ∧ p.character < q.character

/-- The place behind the start of a text. -/
def behind (s : Text) : Place := { line := s.count '\n', character := s.lastLine.length }

theorem of_at_append (s t : Text) : Place.of (Position.at (s ++ t) s.length) = behind s := by
  rw [Position.at_append]
  simp [Place.of, behind, Text.lastLine]

/-- The place behind the start of a text has the offset of that start. -/
theorem offsetOf_behind (s t : Text) : (s ++ t).offsetOf (behind s) = s.length := by
  obtain ⟨before, after, hlines, hlength, hbefore⟩ := Text.exists_splitOn_append s t
  rw [Text.offsetOf, hlines]
  simp only [behind, ← hlength, List.take_left]
  rw [← List.length_append, hbefore]

/-- The character behind the start of a text stands at the place behind it. -/
theorem charAt?_behind (s t : Text) {c : Char} (h : c ≠ '\n') :
    (s ++ c :: t).charAt? (behind s) = some c := by
  obtain ⟨before, after, hlines, hlength, -⟩ := Text.exists_splitOn_append s (c :: t)
  have hfirst : Text.firstLine (c :: t) = c :: t.firstLine := by simp [Text.firstLine, h]
  rw [Text.charAt?, hlines]
  simp [behind, ← hlength, hfirst]

/-- The place behind a character that ends no line is the next one on the line. -/
theorem behind_concat (s : Text) {c : Char} (h : c ≠ '\n') :
    behind (s ++ [c]) = { behind s with character := (behind s).character + 1 } := by
  have hc : '\n' ∉ [c] := by simpa using h.symm
  simp [behind, Text.lastLine_append_of_not_mem s hc, List.count_eq_zero.mpr hc]

/-- Places follow each other in the order of the text. -/
theorem before_of_append (s : Text) {t : Text} (h : t ≠ []) :
    (behind s).Before (behind (s ++ t)) := by
  by_cases ht : '\n' ∈ t
  · left
    have hpos : 0 < t.count '\n' := List.count_pos_iff.mpr ht
    simp only [behind, List.count_append]
    omega
  · right
    have hpos : 0 < t.length := List.length_pos_iff.mpr h
    simp only [behind, List.count_append, List.count_eq_zero.mpr ht,
      Text.lastLine_append_of_not_mem s ht, List.length_append]
    omega

end Place

end TagLexer
