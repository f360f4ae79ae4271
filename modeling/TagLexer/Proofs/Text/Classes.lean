import Mathlib.Data.List.TakeWhile
import TagLexer.Text.Blank
import TagLexer.Token.Word

/-!
# Character classes and runs

Blank characters and word characters are given by tables of code points. The two tables lie apart,
so no character is of both classes. A maximal run of a class is exactly what a longest match takes
from the text it starts.
-/

namespace TagLexer

/-- Two tables lie apart when no range of one meets a range of the other. -/
def Ranges.Apart (table other : Ranges) : Prop :=
  ∀ range ∈ table, ∀ stretch ∈ other, range.2 < stretch.1 ∨ stretch.2 < range.1

instance (table other : Ranges) : Decidable (table.Apart other) :=
  inferInstanceAs (Decidable (∀ range ∈ table, ∀ stretch ∈ other, _))

/-- A character of a table is in no table that lies apart from it. -/
theorem Ranges.Apart.contains_eq_false {table other : Ranges} (h : table.Apart other) {c : Char}
    (hc : table.contains c = true) : other.contains c = false := by
  simp only [Ranges.contains, List.any_eq_true, Bool.and_eq_true, decide_eq_true_eq] at hc
  obtain ⟨range, hrange, hlow, hhigh⟩ := hc
  simp only [Ranges.contains, List.any_eq_false, Bool.and_eq_true, decide_eq_true_eq]
  rintro stretch hstretch ⟨hlow', hhigh'⟩
  have := h range hrange stretch hstretch
  omega

private theorem blankRanges_apart_casedRanges : blankRanges.Apart casedRanges := by
  decide +kernel

private theorem blankRanges_apart_digits : blankRanges.Apart [(0x30, 0x39)] := by
  decide

/-- An ASCII digit is a character of the range of code points from `0` to `9`. -/
private theorem isAsciiDigit_eq_contains (c : Char) :
    isAsciiDigit c = Ranges.contains [(0x30, 0x39)] c := by
  simp only [isAsciiDigit, Ranges.contains, List.any_cons, List.any_nil, Bool.or_false]
  rfl

/-- No blank character is part of a word. -/
theorem isWordChar_of_isBlank {c : Char} (h : isBlank c = true) : isWordChar c = false := by
  have hcased : isCased c = false := blankRanges_apart_casedRanges.contains_eq_false h
  have hdigit : isAsciiDigit c = false := by
    rw [isAsciiDigit_eq_contains]
    exact blankRanges_apart_digits.contains_eq_false h
  have hunderscore : c ≠ '_' := by
    rintro rfl
    exact absurd h (by decide)
  have hhyphen : c ≠ '-' := by
    rintro rfl
    exact absurd h (by decide)
  simp [isWordChar, hcased, hdigit, hunderscore, hhyphen]

/-- No character of a word is blank. -/
theorem isBlank_of_isWordChar {c : Char} (h : isWordChar c = true) : isBlank c = false := by
  cases hb : isBlank c with
  | false => rfl
  | true => simp [isWordChar_of_isBlank hb] at h

namespace Text

/-- A text that does not start with a character of a class. -/
def Stops (p : Char → Bool) (s : Text) : Prop := ∀ c ∈ s.head?, p c = false

instance (p : Char → Bool) (s : Text) : Decidable (Stops p s) :=
  decidable_of_iff (s.head?.any p = false) (by cases s <;> simp [Stops])

/-- A run of a class of characters that what stands behind it does not prolong. -/
structure MaximalRun (p : Char → Bool) (run after : Text) : Prop where
  /-- Every character of the run is of the class. -/
  all : ∀ c ∈ run, p c = true
  /-- The run stands before the end or before a character outside the class. -/
  stop : after.Stops p

instance (p : Char → Bool) (run after : Text) : Decidable (MaximalRun p run after) :=
  decidable_of_iff (run.all p = true ∧ after.Stops p)
    ⟨fun h => ⟨List.all_eq_true.mp h.1, h.2⟩, fun h => ⟨List.all_eq_true.mpr h.all, h.stop⟩⟩

namespace MaximalRun

variable {p : Char → Bool} {run after s : Text}

/-- A longest match takes the whole of a maximal run and nothing behind it. -/
theorem takeWhile_eq (h : MaximalRun p run after) : (run ++ after).takeWhile p = run := by
  have hnil : after.takeWhile p = [] := by
    cases after with
    | nil => rfl
    | cons c after => exact List.takeWhile_cons_of_neg (by simp [h.stop c rfl])
  rw [List.takeWhile_append_of_pos h.all, hnil, List.append_nil]

/-- A longest match leaves what stands behind a maximal run. -/
theorem dropWhile_eq (h : MaximalRun p run after) : (run ++ after).dropWhile p = after := by
  have hsplit := List.takeWhile_append_dropWhile (p := p) (l := run ++ after)
  rw [h.takeWhile_eq] at hsplit
  exact List.append_cancel_left hsplit

/-- A maximal run stays one without its first character. -/
theorem of_cons {c : Char} (h : MaximalRun p (c :: run) after) : MaximalRun p run after :=
  ⟨fun d hd => h.all d (List.mem_cons_of_mem c hd), h.stop⟩

/-- What a longest match takes is a maximal run before what it leaves. -/
theorem of_takeWhile (p : Char → Bool) (s : Text) :
    MaximalRun p (s.takeWhile p) (s.dropWhile p) where
  all _ hc := List.mem_takeWhile_imp hc
  stop c hc := by
    have h := List.head?_dropWhile_not p s
    rw [Option.mem_def.mp hc] at h
    exact h

end MaximalRun

end Text

end TagLexer
