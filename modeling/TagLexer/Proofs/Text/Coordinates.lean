import TagLexer.Proofs.Text.Lines

/-!
# Lines and columns as coordinates

The position of an offset is read off what stands before it: the lines that end there and the start
of the line that goes on. Line and column give the offset back, whatever integer was asked for after
it has been moved to the nearer end of the source, and they increase with it line by line
(`position_at_coordinates`).
-/

namespace TagLexer

namespace Text

/-- Lines with their ends are as long as the lines and one more for each of them. -/
theorem length_ended (lines : List Text) :
    (ended lines).length = lines.flatten.length + lines.length := by
  induction lines with
  | nil => rfl
  | cons first lines ih =>
    have hcons : ended (first :: lines) = first ++ ['\n'] ++ ended lines := rfl
    rw [hcons, List.length_append, ih, List.flatten_cons, List.length_append, List.length_append,
      List.length_singleton, List.length_cons]
    omega

end Text

namespace Position

/-- The position behind the start of a text. -/
def behind (front : Text) : Position :=
  { line := (Place.behind front).line + 1
    column := (Place.behind front).character + 1
    offset := front.length }

/-- The position of an offset is the one behind the start of the source that is as long as the
offset, when the offset has been moved to the nearer end of the source. -/
theorem exists_at_eq_behind (source : Text) (offset : Int) :
    ∃ front, front <+: source ∧ (front.length : Int) = max 0 (min offset source.length) ∧
      Position.at source offset = behind front := by
  refine ⟨source.take (min offset.toNat source.length), List.take_prefix .., ?_, ?_⟩
  · rw [List.length_take]
    omega
  · simp only [Position.at, behind, Place.behind, Text.lastLine, List.length_reverse,
      List.length_take, Position.mk.injEq, true_and]
    omega

/-- The position behind the start of a source lies on a line of the source, at most one column
behind its last character. The lines before it, one more for the end of each, and the columns before
it on its line make up the offset. -/
theorem behind_of_prefix {front source : Text} (h : front <+: source) :
    1 ≤ (behind front).line ∧ 1 ≤ (behind front).column ∧
      (∃ chars, (source.splitOn '\n')[(behind front).line - 1]? = some chars ∧
        (behind front).column ≤ chars.length + 1) ∧
      ((source.splitOn '\n').take ((behind front).line - 1)).flatten.length +
        ((behind front).line - 1) + ((behind front).column - 1) = front.length := by
  obtain ⟨back, rfl⟩ := h
  obtain ⟨before, after, hlines, hlength, hfront⟩ := Text.exists_splitOn_append front back
  have hline : (behind front).line - 1 = before.length := hlength.symm
  have hcolumn : (behind front).column = front.lastLine.length + 1 := rfl
  refine ⟨Nat.le_add_left .., Nat.le_add_left ..,
    ⟨front.lastLine ++ Text.firstLine back, ?_, ?_⟩, ?_⟩
  · rw [hlines, hline, List.getElem?_append_right (Nat.le_refl _), Nat.sub_self]
    rfl
  · rw [hcolumn, List.length_append]
    omega
  · have htotal := congrArg List.length hfront
    rw [List.length_append, Text.length_ended] at htotal
    rw [hlines, hline, List.take_left, hcolumn]
    omega

/-- Positions follow each other by line and column in the order of the text. -/
theorem behind_lt_of_prefix {front front' source : Text} (h : front <+: source)
    (h' : front' <+: source) (hlt : front.length < front'.length) :
    (behind front).line < (behind front').line ∨
      (behind front).line = (behind front').line ∧
        (behind front).column < (behind front').column := by
  obtain ⟨between, rfl⟩ := List.prefix_of_prefix_length_le h h' (Nat.le_of_lt hlt)
  have hne : between ≠ [] := by
    rintro rfl
    simp at hlt
  have hbefore := Place.before_of_append front hne
  simp only [Place.Before] at hbefore
  simp only [behind]
  omega

/-- Positions of increasing offsets in a source follow each other by line and column. -/
theorem at_lt_at {source : Text} {o o' : Nat} (hlt : o < o') (hle : o' ≤ source.length) :
    (Position.at source o).line < (Position.at source o').line ∨
      (Position.at source o).line = (Position.at source o').line ∧
        (Position.at source o).column < (Position.at source o').column := by
  obtain ⟨front, hfront, hlength, hat⟩ := exists_at_eq_behind source o
  obtain ⟨front', hfront', hlength', hat'⟩ := exists_at_eq_behind source o'
  rw [hat, hat']
  exact behind_lt_of_prefix hfront hfront' (by omega)

end Position

/-- Take any source and any integer, and move the integer to the nearer end of the source if it lies
outside. The position has that offset. Its line is one of the lines between line feeds and its
column is at most one behind the last character of that line. The lengths of the lines before it,
one for the end of each of them, and the columns before it add up to the offset. Offsets inside the
source therefore have different pairs of line and column, and the pairs increase strictly with the
offset: by line, and by column on the same line. -/
theorem position_at_coordinates (source : Text) :
    (∀ offset : Int, ∃ p, p = Position.at source offset ∧
      (p.offset : Int) = max 0 (min offset source.length) ∧
      1 ≤ p.line ∧ p.line ≤ (source.splitOn '\n').length ∧ 1 ≤ p.column ∧
      (∃ chars, (source.splitOn '\n')[p.line - 1]? = some chars ∧ p.column ≤ chars.length + 1) ∧
      ((source.splitOn '\n').take (p.line - 1)).flatten.length + (p.line - 1) + (p.column - 1) =
        p.offset) ∧
      (∀ o o' : Nat, o ≤ source.length → o' ≤ source.length →
        (Position.at source o).line = (Position.at source o').line →
        (Position.at source o).column = (Position.at source o').column → o = o') ∧
      ∀ o o' : Nat, o < o' → o' ≤ source.length →
        (Position.at source o).line < (Position.at source o').line ∨
          (Position.at source o).line = (Position.at source o').line ∧
            (Position.at source o).column < (Position.at source o').column := by
  refine ⟨fun offset => ?_, fun o o' hle hle' hline hcolumn => ?_, fun o o' => Position.at_lt_at⟩
  · obtain ⟨front, hfront, hlength, hat⟩ := Position.exists_at_eq_behind source offset
    obtain ⟨hline, hcolumn, hchars, htotal⟩ := Position.behind_of_prefix hfront
    refine ⟨_, rfl, ?_⟩
    rw [hat]
    refine ⟨hlength, hline, ?_, hcolumn, hchars, htotal⟩
    obtain ⟨chars, hget, -⟩ := hchars
    have hlt := (List.getElem?_eq_some_iff.mp hget).1
    omega
  · rcases Nat.lt_trichotomy o o' with hlt | heq | hgt
    · have horder := Position.at_lt_at hlt hle'
      omega
    · exact heq
    · have horder := Position.at_lt_at hgt hle
      omega

end TagLexer
